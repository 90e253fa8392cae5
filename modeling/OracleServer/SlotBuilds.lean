import OracleServer.ItemModes
import OracleServer.Lib.Tally

/-! Building the slots of one request, watched. A watched build announces its start and its
end by operations of its own and may ask anything else in between, so the trace shows
which builds were called, in which order, and how many were in flight. -/
namespace OracleServer

open Interaction Interaction.Contract

structure Watch (R B : Type) where
  enter : R → Op
  leave : R → Op
  isEnter : Op → Bool
  isLeave : Op → Bool
  enters : ∀ v, isEnter (enter v) = true
  leaves : ∀ v, isLeave (leave v) = true
  apart : ∀ o, isEnter o = true → isLeave o = false
  work : R → Prog Op Op.Answer Unit
  silent : ∀ v, (work v).Uses fun o => isEnter o = false ∧ isLeave o = false
  outcome : R → Except AppError B

namespace Watch
variable {R B : Type} (W : Watch R B)

/-- `build_one`: its outcome is fixed, how long it takes is not. -/
def build (v : R) : Act B :=
  ExceptT.mk (.op (W.enter v) fun _ => (W.work v).bind fun _ =>
    .op (W.leave v) fun _ => .ret (W.outcome v))

def calls (tr : Trace Server Op Op.Answer) : List Op := (tr.map Entry.op).filter W.isEnter

def returns (tr : Trace Server Op Op.Answer) : List Op := (tr.map Entry.op).filter W.isLeave

/-- The slots the strict loop builds: up to the first that had failed, or through the
first whose build fails. -/
def attempted : List (Except AppError R) → List R
  | .ok v :: rest =>
    match W.outcome v with
    | .ok _ => v :: attempted rest
    | .error _ => [v]
  | _ => []

/-- The calls one slot makes. -/
def slotCalls : Except AppError R → Multiset Op
  | .ok v => {W.enter v}
  | .error _ => 0

def weight (o : Op) : Multiset Op × ℕ :=
  (if W.isEnter o then {o} else 0, if W.isLeave o then 1 else 0)

variable {W}

theorem isLeave_enter (v : R) : W.isLeave (W.enter v) = false := W.apart _ (W.enters v)

theorem isEnter_leave (v : R) : W.isEnter (W.leave v) = false := by
  by_contra h
  have hleave := W.apart _ (by simpa using h)
  simp [W.leaves v] at hleave

theorem weight_enter (v : R) : W.weight (W.enter v) = ({W.enter v}, 0) := by
  simp [weight, W.enters v, isLeave_enter]

theorem weight_leave (v : R) : W.weight (W.leave v) = (0, 1) := by
  simp [weight, W.leaves v, isEnter_leave]

theorem weight_trace (tr : Trace Server Op Op.Answer) :
    Trace.weight W.weight tr = (↑(W.calls tr), (W.returns tr).length) := by
  induction tr using List.reverseRecOn with
  | nil => rfl
  | append_singleton tr e ih =>
    rw [Trace.weight_snoc, ih]
    simp only [weight, calls, returns, List.map_append, List.map_singleton, List.filter_append,
      List.length_append, Prod.mk_add_mk]
    congr 1
    · rw [← Multiset.coe_add]
      cases h : W.isEnter e.op <;> simp [h]
    · cases h : W.isLeave e.op <;> simp [h]

theorem sum_slotCalls (slots : List (Except AppError R)) :
    (slots.map W.slotCalls).sum = ↑((oks slots).map W.enter) := by
  induction slots with
  | nil => rfl
  | cons slot rest ih =>
    rw [List.map_cons, List.sum_cons, ih]
    cases slot with
    | error e => exact zero_add _
    | ok v =>
      have hoks : oks (.ok v :: rest) = v :: oks rest := rfl
      rw [hoks, List.map_cons, ← Multiset.cons_coe]
      rfl

theorem sum_spending (slots : List (Except AppError R)) :
    (slots.map fun slot => (W.slotCalls slot, (W.slotCalls slot).card)).sum =
      ((slots.map W.slotCalls).sum, ((slots.map W.slotCalls).sum).card) := by
  induction slots with
  | nil => rfl
  | cons slot rest ih =>
    rw [List.map_cons, List.sum_cons, ih, List.map_cons, List.sum_cons, Multiset.card_add]
    rfl

/-- What one branch of the window may spend: at most its own call, with at most one of its
calls unfinished. -/
def within (slot : Except AppError R) (g : Multiset Op × ℕ) : Prop :=
  g.1 ≤ W.slotCalls slot ∧ g.1.card ≤ g.2 + 1

/-- What it has spent, and yields, when it is through. -/
def through (slot : Except AppError R) (r : Except AppError B) (g : Multiset Op × ℕ) : Prop :=
  r = slot >>= W.outcome ∧ g = (W.slotCalls slot, (W.slotCalls slot).card)

/-- The branch of one slot. -/
def branch (W : Watch R B) (slot : Except AppError R) : Prog Op Op.Answer (Except AppError B) :=
  match slot with
  | .error err => .ret (.error err)
  | .ok value => (W.build value).run

theorem branch_tally (slot : Except AppError R) :
    (W.branch slot).Tally W.weight (W.within slot) (W.through slot) 0 := by
  cases slot with
  | error e => exact ⟨⟨le_rfl, Nat.zero_le _⟩, rfl, rfl⟩
  | ok v =>
    have hcalls : W.slotCalls (.ok v) = {W.enter v} := rfl
    refine ⟨⟨Multiset.zero_le _, Nat.zero_le _⟩, fun _ => Prog.Tally.bind ?_⟩
    rw [weight_enter, zero_add]
    -- between the two announcements nothing is counted
    have hinside : W.within (.ok v) ({W.enter v}, 0) := ⟨le_rfl, by simp⟩
    have hwork : (W.work v).Uses fun o => W.weight o = 0 := by
      refine (W.silent v).mono fun o ho => ?_
      simp [weight, ho.1, ho.2]
    refine Prog.Tally.of_uses hwork hinside fun _ => ⟨hinside, fun _ => ?_⟩
    rw [weight_leave]
    refine ⟨⟨by simp [hcalls], by simp⟩, rfl, by simp [hcalls]⟩

theorem buildSlots_envelope (slots : List (Except AppError R)) :
    (buildSlots slots true W.build).run = .unordered maxConcurrentSlotBuilds (slots.map W.branch)
      fun completed => (match place slots.length completed with
        | some built => pure built
        | none => throw (.internal "every index is produced exactly once") :
        Handle B (List (Except AppError B))).run := rfl

/-- The task of an envelope pass: not started, in its window, or back with every result. -/
inductive InWindow (W : Watch R B) (slots : List (Except AppError R)) :
    Task Server Op Op.Answer (Except AppError B) (Except AppError (List (Except AppError B))) → Prop
  | ready : InWindow W slots ⟨.run (buildSlots slots true W.build).run, []⟩
  | building {bs : List (Branch Op Op.Answer (Except AppError B))}
    {ys : List (ℕ × Except AppError B)} {tr : Trace Server Op Op.Answer} {h : ℕ → Multiset Op × ℕ}
    (hlen : bs.length = slots.length) (hroom : bs.countP Branch.isActive ≤ maxConcurrentSlotBuilds)
    (hspent : Spent W.weight (fun j g => ∀ slot, slots[j]? = some slot → W.within slot g)
      (fun j r g => ∀ slot, slots[j]? = some slot → W.through slot r g) 0 bs ys tr h) :
    InWindow W slots ⟨.streaming maxConcurrentSlotBuilds bs ys fun completed =>
      (match place slots.length completed with
        | some built => pure built
        | none => throw (.internal "every index is produced exactly once") :
        Handle B (List (Except AppError B))).run, tr⟩
  | through {tr : Trace Server Op Op.Answer}
    (hweight : Trace.weight W.weight tr =
      ((slots.map W.slotCalls).sum, ((slots.map W.slotCalls).sum).card)) :
    InWindow W slots ⟨.run (.ret (.ok (slots.map (· >>= W.outcome)))), tr⟩

variable {slots : List (Except AppError R)}
  {t t' : Task Server Op Op.Answer (Except AppError B) (Except AppError (List (Except AppError B)))}

theorem countP_set_active {bs : List (Branch Op Op.Answer (Except AppError B))} {j : ℕ}
    {b : Branch Op Op.Answer (Except AppError B)} (hj : bs[j]? = some b)
    (b' : Branch Op Op.Answer (Except AppError B)) :
    (bs.set j b').countP Branch.isActive + (if b.isActive then 1 else 0) =
      bs.countP Branch.isActive + if b'.isActive then 1 else 0 := by
  obtain ⟨hlt, hb⟩ := List.getElem?_eq_some_iff.mp hj
  rw [List.countP_set hlt, hb]
  have hpos : b.isActive = true → 0 < bs.countP Branch.isActive := by
    intro hactive
    exact List.countP_pos_iff.mpr ⟨b, List.mem_of_getElem? hj, hactive⟩
  cases hactive : b.isActive with
  | true =>
    have := hpos hactive
    simp only [if_true]
    omega
  | false => simp

theorem sum_active (bs : List (Branch Op Op.Answer (Except AppError B))) :
    (bs.map fun b => if b.isActive then 1 else 0).sum = bs.countP Branch.isActive := by
  induction bs with
  | nil => rfl
  | cons b rest ih =>
    rw [List.map_cons, List.sum_cons, ih, List.countP_cons]
    omega

theorem InWindow.step {D : Deployment} {i : Input} {m : Move} {s s' : Server}
    (h : InWindow W slots t) (hstep : t.step (Server.perform D) i m s = some (t', s')) :
    InWindow W slots t' := by
  cases h with
  | ready =>
    rw [buildSlots_envelope] at hstep
    cases m <;> simp only [Task.step, reduceCtorEq, Option.some.injEq] at hstep
    obtain ⟨rfl, rfl⟩ := Prod.mk.inj hstep
    refine .building (by simp) ?_ (.fresh (fun j p hp => ?_) rfl)
    · rw [List.countP_eq_zero.mpr (by simp [Branch.isActive])]
      exact Nat.zero_le _
    · obtain ⟨slot, hslot, rfl⟩ := List.getElem?_map .. ▸ hp |> Option.map_eq_some_iff.mp
      have heq : ∀ slot', slots[j]? = some slot' → slot = slot' :=
        fun slot' h' => Option.some.inj (hslot.symm.trans h')
      exact (branch_tally slot).mono (fun g hg slot' h' => heq slot' h' ▸ hg)
        (fun r g hg slot' h' => heq slot' h' ▸ hg)
  | through hweight => cases m <;> simp [Task.step] at hstep
  | @building bs ys tr h hlen hroom hspent =>
    cases m with
    | main => simp [Task.step] at hstep
    | start =>
      simp only [Task.step] at hstep
      split at hstep
      case isFalse => cases hstep
      case isTrue hopen =>
        obtain ⟨bs', hst, heq⟩ := Option.map_eq_some_iff.mp hstep
        obtain ⟨rfl, rfl⟩ := Prod.mk.inj heq
        obtain ⟨j, p, hj, rfl⟩ := startNext_some hst
        refine .building (by simpa using hlen) ?_ (hspent.start hj)
        have hcount := countP_set_active hj (.active p)
        simp [Branch.isActive] at hcount
        omega
    | branch j =>
      simp only [Task.step] at hstep
      split at hstep
      case h_2 => cases hstep
      case h_1 o f hj =>
        obtain ⟨⟨a, u⟩, -, heq⟩ := Option.map_eq_some_iff.mp hstep
        obtain ⟨rfl, rfl⟩ := Prod.mk.inj heq
        refine .building (by simpa using hlen) ?_ (hspent.ask hj _ rfl a)
        change (bs.set j (.active (f a))).countP Branch.isActive ≤ _
        have hcount := countP_set_active hj (.active (f a))
        simp [Branch.isActive] at hcount
        omega
    | yield j =>
      simp only [Task.step] at hstep
      split at hstep
      case h_2 => cases hstep
      case h_1 r hj =>
        obtain ⟨rfl, rfl⟩ := Prod.mk.inj (Option.some.inj hstep)
        refine .building (by simpa using hlen) ?_ (hspent.yield hj)
        have hcount := countP_set_active hj .done
        simp [Branch.isActive] at hcount
        omega
    | finish =>
      simp only [Task.step] at hstep
      split at hstep
      case isFalse => cases hstep
      case isTrue hall =>
        obtain ⟨rfl, rfl⟩ := Prod.mk.inj (Option.some.inj hstep)
        have hperm := hlen ▸ hspent.yields.perm hall
        have hplace : place slots.length ys = some (slots.map (· >>= W.outcome)) :=
          place_map hperm fun j r slot hr hslot => (hspent.yielded j r hr slot hslot).1
        rw [hplace]
        refine .through ?_
        -- every branch is done, and has spent its own call
        have hspending : ∀ (j : ℕ) slot, slots[j]? = some slot →
            h j = (W.slotCalls slot, (W.slotCalls slot).card) := by
          intro j slot hslot
          have hlt : j < bs.length := by
            rw [hlen]
            exact (List.getElem?_eq_some_iff.mp hslot).1
          have hdone : bs[j]? = some .done := by
            rw [List.getElem?_eq_getElem hlt]
            have hall' := List.all_eq_true.mp hall _ (List.getElem_mem hlt)
            cases hb : bs[j] <;> simp [hb, Branch.isDone] at hall' ⊢
          obtain ⟨r, -, hthrough⟩ := hspent.done hdone
          exact (hthrough slot hslot).2
        rw [hspent.total, hlen, sum_places hspending, zero_add]
        exact sum_spending slots

/-- In the window the calls are among those of the slots, at most ten of them unfinished;
after it they are exactly those of the slots, in some order. -/
theorem InWindow.bounds (h : InWindow W slots t) :
    (W.calls t.trace).length ≤ (W.returns t.trace).length + maxConcurrentSlotBuilds ∧
      (↑(W.calls t.trace) : Multiset Op) ≤ ↑((oks slots).map W.enter) ∧
      ∀ r, t.config = .run (.ret r) → r = .ok (slots.map (· >>= W.outcome)) ∧
        (W.calls t.trace).Perm ((oks slots).map W.enter) := by
  cases h with
  | ready =>
    refine ⟨Nat.zero_le _, Multiset.zero_le _, fun r hr => ?_⟩
    rw [buildSlots_envelope] at hr
    cases hr
  | @through tr hweight =>
    rw [weight_trace, sum_slotCalls] at hweight
    obtain ⟨hcalls, hreturns⟩ := Prod.mk.inj hweight
    have hlen : (W.calls tr).length = (W.returns tr).length := by
      rw [hreturns, ← hcalls, Multiset.coe_card]
    refine ⟨by dsimp only; omega, hcalls.le, fun r hr => ?_⟩
    cases hr
    exact ⟨rfl, Multiset.coe_eq_coe.mp hcalls⟩
  | @building bs ys tr h hlen hroom hspent =>
    have htotal := hspent.total
    rw [weight_trace, zero_add] at htotal
    have hcalls : (↑(W.calls tr) : Multiset Op) = ∑ j ∈ Finset.range bs.length, (h j).1 := by
      rw [← Prod.fst_sum, ← htotal]
    have hreturns : (W.returns tr).length = ∑ j ∈ Finset.range bs.length, (h j).2 := by
      rw [← Prod.snd_sum, ← htotal]
    -- what each branch has spent is within its slot's own call
    have hplace : ∀ (j : ℕ) slot, slots[j]? = some slot → ∃ b, bs[j]? = some b := by
      intro j slot hslot
      have hlt : j < bs.length := hlen ▸ (List.getElem?_eq_some_iff.mp hslot).1
      exact ⟨_, List.getElem?_eq_getElem hlt⟩
    have hslots : ∀ (j : ℕ) b, bs[j]? = some b → ∃ slot, slots[j]? = some slot := by
      intro j b hb
      have hlt : j < slots.length := hlen ▸ (List.getElem?_eq_some_iff.mp hb).1
      exact ⟨_, List.getElem?_eq_getElem hlt⟩
    have hwithin : ∀ (j : ℕ) slot, slots[j]? = some slot → W.within slot (h j) := by
      intro j slot hslot
      obtain ⟨b, hb⟩ := hplace j slot hslot
      cases b with
      | queued p =>
        rw [(hspent.queued j p hb).1]
        exact ⟨Multiset.zero_le _, Nat.zero_le _⟩
      | active p => exact (hspent.active j p hb).within slot hslot
      | done =>
        obtain ⟨r, -, hthrough⟩ := hspent.done hb
        rw [(hthrough slot hslot).2]
        exact ⟨le_rfl, Nat.le_succ _⟩
    have hopen : ∀ (j : ℕ) b, bs[j]? = some b →
        (h j).1.card ≤ (h j).2 + if b.isActive then 1 else 0 := by
      intro j b hb
      obtain ⟨slot, hslot⟩ := hslots j b hb
      cases b with
      | queued p => simp [(hspent.queued j p hb).1]
      | active p => exact (hwithin j slot hslot).2
      | done =>
        obtain ⟨r, -, hthrough⟩ := hspent.done hb
        simp [(hthrough slot hslot).2]
    refine ⟨?_, ?_, fun r hr => nomatch hr⟩
    · have hactive : ∑ j ∈ Finset.range bs.length,
          (if (bs[j]?).any Branch.isActive then 1 else 0) = bs.countP Branch.isActive := by
        rw [sum_places (f := fun b => if b.isActive then 1 else 0) fun j b hb => by rw [hb]; rfl]
        exact sum_active bs
      calc (W.calls tr).length = ∑ j ∈ Finset.range bs.length, (h j).1.card := by
            rw [← Multiset.coe_card, hcalls, Multiset.card_sum]
        _ ≤ ∑ j ∈ Finset.range bs.length,
              ((h j).2 + if (bs[j]?).any Branch.isActive then 1 else 0) := by
            refine Finset.sum_le_sum fun j hj => ?_
            have hlt : j < bs.length := Finset.mem_range.mp hj
            have hb := List.getElem?_eq_getElem hlt
            rw [hb]
            exact hopen j _ hb
        _ = (W.returns tr).length + bs.countP Branch.isActive := by
            rw [Finset.sum_add_distrib, hactive, hreturns]
        _ ≤ (W.returns tr).length + maxConcurrentSlotBuilds := by omega
    · rw [hcalls, ← sum_slotCalls, hlen,
        ← sum_places (h := fun j => (slots[j]?).elim 0 W.slotCalls) fun j slot hslot => by rw [hslot]; rfl]
      refine Finset.sum_le_sum fun j hj => ?_
      have hlt : j < slots.length := Finset.mem_range.mp hj
      have hslot := List.getElem?_eq_getElem hlt
      rw [hslot]
      exact (hwithin j _ hslot).1

section Strict
variable {L : List Op} {n : ℕ}

open Classical in
/-- One build at a time, in the order of `L`: how many were called, and whether one runs. -/
noncomputable def gate (W : Watch R B) (L : List Op) : ℕ × Bool → Op → Option (ℕ × Bool)
  | (n, inside), o =>
    if W.isEnter o then
      if inside = false ∧ L[n]? = some o then some (n + 1, true) else none
    else if W.isLeave o then (if inside then some (n, false) else none)
    else some (n, inside)

theorem gate_silent {m : ℕ × Bool} {o : Op} (h : W.isEnter o = false ∧ W.isLeave o = false) :
    W.gate L m o = some m := by
  simp [gate, h.1, h.2]

theorem gate_enter {v : R} (h : L[n]? = some (W.enter v)) :
    W.gate L (n, false) (W.enter v) = some (n + 1, true) := by
  simp [gate, W.enters v, h]

theorem gate_leave (v : R) : W.gate L (n, true) (W.leave v) = some (n, false) := by
  simp [gate, W.leaves v, isEnter_leave]

/-- A trace the gate let through has called the first `n` of the list, in order. -/
theorem gate_word {ops : List Op} {m : ℕ × Bool}
    (h : Machine.run (W.gate L) (0, false) ops = some m) :
    ops.filter W.isEnter = L.take m.1 ∧ m.1 ≤ L.length ∧
      (ops.filter W.isLeave).length + (if m.2 then 1 else 0) = m.1 := by
  induction ops using List.reverseRecOn generalizing m with
  | nil =>
    obtain rfl := Option.some.inj h
    simp
  | append_singleton ops o ih =>
    obtain ⟨⟨n, inside⟩, hrun, hlast⟩ := Machine.run_snoc.mp h
    obtain ⟨hcalls, hle, hleft⟩ := ih hrun
    rw [List.filter_append, List.filter_append, hcalls]
    cases henter : W.isEnter o with
    | true =>
      simp only [gate, henter, if_true] at hlast
      split at hlast
      · next hnext =>
        obtain ⟨rfl, hget⟩ := hnext
        obtain rfl := Option.some.inj hlast
        have hlt : n < L.length := (List.getElem?_eq_some_iff.mp hget).1
        have hleave : W.isLeave o = false := W.apart o henter
        refine ⟨?_, hlt, ?_⟩
        · rw [List.take_add_one, hget]
          simp [henter]
        · simp [hleave] at hleft ⊢
          omega
      · cases hlast
    | false =>
      simp only [gate, henter] at hlast
      cases hleave : W.isLeave o with
      | true =>
        cases inside with
        | true =>
          simp only [hleave, if_true] at hlast
          obtain rfl := Option.some.inj hlast
          simp [henter, hleave] at hleft ⊢
          omega
        | false => simp [hleave] at hlast
      | false =>
        simp only [hleave] at hlast
        obtain rfl := Option.some.inj hlast
        simpa [henter, hleave] using ⟨hle, hleft⟩

/-- The strict loop on a slot that carries a value, one operation after the other. -/
theorem buildInOrder_cons (v : R) (rest : List (Except AppError R)) :
    (buildInOrder W.build (.ok v :: rest)).run = .op (W.enter v) fun _ => (W.work v).bind fun _ =>
      .op (W.leave v) fun _ => match W.outcome v with
        | .error e => .ret (.error e)
        | .ok b => (buildInOrder W.build rest).run.bind fun others =>
            .ret (others.map fun built => .ok b :: built) := by
  refine congrArg (Prog.op (W.enter v)) (funext fun _ => ?_)
  refine (Prog.bind_assoc _ _ _).trans (congrArg _ (funext fun _ => ?_))
  refine congrArg (Prog.op (W.leave v)) (funext fun _ => ?_)
  cases hout : W.outcome v with
  | error e => rfl
  | ok b =>
    refine congrArg ((buildInOrder W.build rest).run.bind) (funext fun others => ?_)
    cases others <;> rfl

theorem buildInOrder_obeys {slots : List (Except AppError R)} (hn : n ≤ L.length)
    (hL : L.drop n = (W.attempted slots).map W.enter) :
    ((buildInOrder W.build slots).run.toPar (β := Except AppError B)).Obeys (W.gate L)
      (fun r m => m = (L.length, false) ∧ r = (slots.mapM (· >>= W.outcome)).map (List.map .ok))
      (n, false) := by
  induction slots generalizing n with
  | nil =>
    have hend : n = L.length := by
      have := List.drop_eq_nil_iff.mp hL
      omega
    exact ⟨by rw [hend], rfl⟩
  | cons slot rest ih =>
    cases slot with
    | error e =>
      have hend : n = L.length := by
        have := List.drop_eq_nil_iff.mp hL
        omega
      refine ⟨by rw [hend], ?_⟩
      rw [mapM_cons_error (f := (· >>= W.outcome)) (e := e) rfl]
      rfl
    | ok v =>
      obtain ⟨more, hmore⟩ : ∃ more, (W.attempted (.ok v :: rest)).map W.enter =
          W.enter v :: more := by
        unfold attempted
        split <;> exact ⟨_, rfl⟩
      have hget : L[n]? = some (W.enter v) := by
        rw [← List.head?_drop, hL, hmore]
        rfl
      have hlt : n < L.length := (List.getElem?_eq_some_iff.mp hget).1
      have hnext : L.drop (n + 1) = more := by
        rw [← List.tail_drop, hL, hmore]
        rfl
      rw [buildInOrder_cons]
      refine ⟨_, gate_enter hget, fun _ => Par.Obeys.silent ?_ fun _ => ⟨_, gate_leave v, fun _ => ?_⟩⟩
      · exact (W.silent v).mono fun o ho => gate_silent ho
      · unfold attempted at hmore
        cases hout : W.outcome v with
        | error e =>
          rw [hout] at hmore
          obtain rfl : more = [] := by simpa using hmore.symm
          have hend : n + 1 = L.length := by
            have := List.drop_eq_nil_iff.mp hnext
            omega
          refine ⟨by rw [hend], ?_⟩
          rw [mapM_cons_error (f := (· >>= W.outcome)) (e := e) hout]
          rfl
        | ok b =>
          rw [hout] at hmore
          obtain rfl : (W.attempted rest).map W.enter = more := by simpa using hmore
          rw [mapM_cons_ok (f := (· >>= W.outcome)) (b := b) hout, except_map_map]
          dsimp only
          rw [Prog.toPar_bind]
          refine Par.Obeys.bind ((ih hlt hnext).mono fun r m hr => ?_)
          refine ⟨hr.1, ?_⟩
          rw [hr.2, except_map_map]
          rfl

end Strict

end Watch

/-- Anything may happen between two operations. -/
def Environment.any (D : Deployment) : Environment D where
  Admissible _ := True
  Inv _ := True
  Rel _ _ := True
  refl _ := trivial
  trans _ _ := trivial
  keeps _ _ _ := ⟨trivial, trivial⟩

/-- What the strict loop makes of the slots: all their values, or the first error. -/
structure FirstError {R B : Type} (slots : List (Except AppError R)) (f : R → Except AppError B)
    (result : Except AppError (List (Except AppError B))) : Prop where
  ok_iff : ∀ built, result = .ok built ↔
    slots.map (· >>= f) = built ∧ ∃ vs : List B, built = vs.map .ok
  error_iff : ∀ e, result = .error e ↔ ∃ (i : ℕ) (slot : Except AppError R),
    slots[i]? = some slot ∧ slot >>= f = .error e ∧
      ∀ j < i, ∀ slot', slots[j]? = some slot' → ∃ b, slot' >>= f = .ok b

section Builds
variable {R B : Type} {W : Watch R B} {slots : List (Except AppError R)}

theorem firstError_mapM (slots : List (Except AppError R)) (f : R → Except AppError B) :
    FirstError slots f ((slots.mapM (· >>= f)).map (List.map .ok)) where
  ok_iff built := by
    constructor
    · intro h
      obtain ⟨vs, hvs, rfl⟩ := except_map_ok h
      exact ⟨mapM_ok_iff.mp hvs, vs, rfl⟩
    · rintro ⟨hmap, vs, rfl⟩
      rw [mapM_ok_iff.mpr hmap]
      rfl
  error_iff e := by
    rw [← mapM_error_iff]
    cases slots.mapM (· >>= f) <;> simp [Except.map]

theorem Watch.build_always {D : Deployment} (v : R) :
    (Environment.any D).contract.Always (· = W.outcome v) (W.build v).run :=
  Always.ask (fun _ => trivial) fun _ =>
    Always.bind (Always.anything (fun _ _ => trivial) _) fun _ _ =>
      Always.ask (fun _ => trivial) fun _ => Always.ret rfl

theorem buildSlots_returns (envelope : Bool) (D : Deployment) (s : Server) :
    (Environment.any D).contract.Returns (buildSlots slots envelope W.build).run s
      (· = pass envelope slots W.outcome) :=
  SafePar.returns (Environment.answers _) trivial
    (buildSlots_always (fun v _ => W.build_always v) envelope [] s trivial)

/-- Building is independent of the order in which builds complete. With the envelope every
slot gets its own result, each value is built once, and at most ten builds are in flight;
without it the builds run one at a time over the slots up to the first failure. -/
theorem builds_follow_slots (W : Watch R B) (slots : List (Except AppError R)) (D : Deployment)
    (s : Server) :
    ((Environment.any D).contract.Returns (buildSlots slots true W.build).run s
        (· = .ok (slots.map (· >>= W.outcome))) ∧
      ∀ t u, (Environment.any D).contract.Reaches
          (⟨.run (buildSlots slots true W.build).run, []⟩, s) (t, u) →
        (W.calls t.trace).length ≤ (W.returns t.trace).length + 10 ∧
        (W.calls t.trace).Subperm ((oks slots).map W.enter) ∧
        ∀ r, t.config = .run (.ret r) → (W.calls t.trace).Perm ((oks slots).map W.enter)) ∧
    ∃ result, FirstError slots W.outcome result ∧
      (Environment.any D).contract.Returns (buildSlots slots false W.build).run s (· = result) ∧
      ∀ t u, (Environment.any D).contract.Reaches
          (⟨.run (buildSlots slots false W.build).run, []⟩, s) (t, u) →
        (W.calls t.trace).length ≤ (W.returns t.trace).length + 1 ∧
        W.calls t.trace <+: (W.attempted slots).map W.enter ∧
        ∀ r, t.config = .run (.ret r) → W.calls t.trace = (W.attempted slots).map W.enter := by
  refine ⟨⟨buildSlots_returns true D s, fun t u hr => ?_⟩, _, firstError_mapM slots W.outcome,
    buildSlots_returns false D s, fun t u hr => ?_⟩
  · have hwindow : Watch.InWindow W slots t :=
      hr.keeps (I := Watch.InWindow W slots) (fun _ _ _ _ _ _ h hstep => h.step hstep) .ready
    obtain ⟨hflight, hcalls, hdone⟩ := hwindow.bounds
    exact ⟨hflight, Multiset.coe_le.mp hcalls, fun r hr => (hdone r hr).2⟩
  · have hstart : (buildSlots slots false W.build).run.Obeys
        (W.gate ((W.attempted slots).map W.enter))
        (fun r m => m = (((W.attempted slots).map W.enter).length, false) ∧
          r = (slots.mapM (· >>= W.outcome)).map (List.map .ok)) (0, false) :=
      Watch.buildInOrder_obeys (Nat.zero_le _) rfl
    have htracks := hr.keeps (I := Task.Tracks (W.gate ((W.attempted slots).map W.enter))
        (fun r m => m = (((W.attempted slots).map W.enter).length, false) ∧
          r = (slots.mapM (· >>= W.outcome)).map (List.map .ok)) (0, false))
      (fun _ _ _ _ _ _ h hstep => h.step hstep) ⟨(0, false), rfl, hstart⟩
    obtain ⟨m, hword, hleft⟩ := htracks
    obtain ⟨hcalls, hle, hreturned⟩ := Watch.gate_word hword
    have hcalls' : W.calls t.trace = ((W.attempted slots).map W.enter).take m.1 := hcalls
    refine ⟨?_, hcalls' ▸ List.take_prefix _ _, fun r hr => ?_⟩
    · have hlen : (W.calls t.trace).length = m.1 := by
        rw [hcalls', List.length_take]
        omega
      have hret : (W.returns t.trace).length + (if m.2 then 1 else 0) = m.1 := hreturned
      split at hret <;> omega
    · rw [hr] at hleft
      rw [hcalls', hleft.1, List.take_length]

/-- Builds of numbered slots that fail on the odd ones, told apart by the counters they bump. -/
def Watch.numbered : Watch ℕ ℕ where
  enter v := .count (.contextItem "build" "enter" v)
  leave v := .count (.contextItem "build" "leave" v)
  isEnter o := match o with | .count (.contextItem _ "enter" _) => true | _ => false
  isLeave o := match o with | .count (.contextItem _ "leave" _) => true | _ => false
  enters _ := rfl
  leaves _ := rfl
  apart o h := by
    split at h
    · rfl
    · cases h
  work _ := .ret ()
  silent _ := trivial
  outcome v := if v % 2 = 0 then .ok v else .error (.badRequest "odd")

example : Watch.numbered.attempted [.ok 0, .ok 2, .ok 3, .ok 4] = [0, 2, 3] := by decide

end Builds

end OracleServer
