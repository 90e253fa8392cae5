import OracleServer.Lib.Clocked
import OracleServer.WorldSafety

/-! What an envelope pass costs, by the clock. The time of each slot is what its build took,
from taking a place to leaving it, whatever it waited for. -/
namespace OracleServer

open Interaction

variable {R B : Type}

/-- The branch of one slot. -/
def slotBranch (buildOne : R → Act B) : Except AppError R → Prog Op Op.Answer (Except AppError B)
  | .error err => .ret (.error err)
  | .ok value => (buildOne value).run

/-- The slots back in request order. -/
def collected (n : ℕ) (completed : List (ℕ × Except AppError B)) :
    Handle B (List (Except AppError B)) :=
  match place n completed with
  | some built => pure built
  | none => throw (.internal "every index is produced exactly once")

theorem buildSlots_streams (slots : List (Except AppError R)) (buildOne : R → Act B) :
    (buildSlots slots true buildOne).run =
      .unordered maxConcurrentSlotBuilds (slots.map (slotBranch buildOne))
        fun completed => (collected slots.length completed).run := rfl

theorem collected_returns (n : ℕ) (completed : List (ℕ × Except AppError B)) :
    ∃ a, (collected n completed).run = .ret a := by
  unfold collected
  cases place n completed with
  | some built => exact ⟨_, rfl⟩
  | none => exact ⟨_, rfl⟩

/-- An envelope pass costs rounds of waits, not one wait for each slot. Under an outage,
where every slot that reaches the signer takes the same wait, `k` of them cost
`⌈k / 10⌉` waits, and slots that had failed before cost nothing. Where builds take
different times a slow one holds up no place but its own: the pass is within the longest
build of the time ten places need for the work, and never longer than one build after
another. A build starts at once, or the moment another ends. -/
theorem envelope_costs_rounds (D : Deployment) (slots : List (Except AppError R))
    (buildOne : R → Act B) {events : List (Timed Server Input)}
    {c : Clocked Server Op Op.Answer (Except AppError B)
      (Except AppError (List (Except AppError B)))}
    (hrun : Machine.run (Clocked.step (Server.perform D))
      (.start (buildSlots slots true buildOne).run) events = some c)
    {r : Except AppError (List (Except AppError B))} (hret : c.task.config = .run (.ret r)) :
    (∀ wait, (∀ j < slots.length, c.took j = 0 ∨ c.took j = wait) →
      c.now = ((Finset.range slots.length).filter fun j => c.took j ≠ 0).card ⌈/⌉
        maxConcurrentSlotBuilds * wait) ∧
      (∀ longest, (∀ j < slots.length, c.took j ≤ longest) →
        maxConcurrentSlotBuilds * c.now ≤ ∑ j ∈ Finset.range slots.length, c.took j +
          (maxConcurrentSlotBuilds - 1) * longest) ∧
      c.now ≤ ∑ j ∈ Finset.range slots.length, c.took j ∧
      (∀ j < slots.length, c.began j = 0 ∨ ∃ i < slots.length, c.ended i = c.began j) ∧
      ∀ j err, slots[j]? = some (.error err) → c.took j = 0 := by
  rw [buildSlots_streams] at hrun
  have hstreams := streams_run (collected_returns slots.length) hrun
  obtain ⟨s, hreached, hover, hnow, hbegan, hended, hquiet⟩ := hstreams.over hret
  rw [List.length_map] at hreached hover
  have htook : ∀ j, s.took j = c.took j := fun j => by
    rw [Window.took, Clocked.took, hbegan, hended]
  have hsum : ∑ j ∈ Finset.range slots.length, s.took j =
      ∑ j ∈ Finset.range slots.length, c.took j := Finset.sum_congr rfl fun j _ => htook j
  have hplaces : 0 < maxConcurrentSlotBuilds := by decide
  have hgraham : ∀ longest, (∀ j < slots.length, c.took j ≤ longest) →
      maxConcurrentSlotBuilds * c.now ≤ ∑ j ∈ Finset.range slots.length, c.took j +
        (maxConcurrentSlotBuilds - 1) * longest := by
    intro longest hlong
    rw [← hnow, ← hsum]
    refine hreached.le_sum hover (fun j hj => ?_) hplaces
    exact (htook j).trans_le (hlong j (Finset.mem_range.mp hj))
  refine ⟨fun wait hwait => ?_, hgraham, ?_, fun j hj => ?_, fun j err hj => ?_⟩
  · have hrounds := hreached.rounds hover hplaces (D := wait) fun j hj =>
      (htook j).symm ▸ hwait j (Finset.mem_range.mp hj)
    simpa only [hnow, htook] using hrounds
  · have hone : ∀ j < slots.length, c.took j ≤ ∑ j ∈ Finset.range slots.length, c.took j :=
      fun j hj => Finset.single_le_sum (f := c.took) (fun _ _ => Nat.zero_le _)
        (Finset.mem_range.mpr hj)
    have hbound := hgraham _ hone
    unfold maxConcurrentSlotBuilds at hbound
    omega
  · have hdone := hover j (Finset.mem_range.mpr hj)
    obtain h₀ | ⟨i, hi, -, hend⟩ := hreached.rolls.follows j (Finset.mem_range.mpr hj)
      (by simp [hdone])
    · exact .inl (hbegan ▸ h₀)
    · exact .inr ⟨i, Finset.mem_range.mp hi, hended ▸ hbegan ▸ hend⟩
  · rw [← htook j]
    exact hquiet j (.error err) (by rw [List.getElem?_map, hj]; rfl)

namespace Sample

/-- One failed slot before eleven whose sign is refused after its wait. -/
def outageSlots : List (Except AppError Unit) :=
  .error (.badRequest "no such pair") :: List.replicate 11 (.ok ())

def refusedSign (_ : Unit) : Act Unit :=
  ExceptT.mk (.op (.signContext []) fun _ => .ret (.error (.internal "the signer is down")))

/-- The failed slot makes room at once; ten slots wait, then the eleventh. -/
def outage : List (Timed Server Input) :=
  let moves (l : List Move) : List (Timed Server Input) :=
    l.map fun m => .move ⟨0, .error "unavailable"⟩ m (World.boot bootSet).server
  moves (.main :: .start :: .yield 0 :: List.replicate 10 .start) ++ [.pass 100] ++
    moves ((List.range' 1 10).map .branch ++ (List.range' 1 10).map .yield ++ [.start]) ++
    [.pass 100] ++ moves [.branch 11, .yield 11, .finish]

theorem eleven_slots_pay_two_waits : ∃ c,
    Machine.run (Clocked.step (Server.perform deployment))
      (.start (buildSlots outageSlots true refusedSign).run) outage = some c ∧
    c.now = 2 * 100 := by
  have hrun : (Machine.run (Clocked.step (Server.perform deployment))
      (.start (buildSlots outageSlots true refusedSign).run) outage).any (fun c =>
        c.task.config.returned && decide ((∀ j < outageSlots.length, c.took j = 0 ∨ c.took j = 100) ∧
          ((Finset.range outageSlots.length).filter fun j => c.took j ≠ 0).card = 11)) = true := by
    decide +kernel
  obtain ⟨c, hc, hfound⟩ := (Option.any_eq_true _ _).mp hrun
  obtain ⟨hover, htimes⟩ := Bool.and_eq_true_iff.mp hfound
  obtain ⟨hwait, hcount⟩ := of_decide_eq_true htimes
  obtain ⟨r, hret⟩ := Config.returned_iff.mp hover
  obtain ⟨hrounds, -⟩ := envelope_costs_rounds deployment outageSlots refusedSign hc hret
  have hnow := hrounds 100 hwait
  rw [hcount] at hnow
  exact ⟨c, hc, hnow⟩

end Sample

end OracleServer
