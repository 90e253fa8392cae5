import OracleServer.Lib.Interaction
import OracleServer.Lib.Window

/-! A task against a clock. Its steps take no time: time passes only while the task can do
nothing but wait for the answer to an operation. The stream of a task is then a rolling
window over its branches. -/
namespace OracleServer.Interaction

section Clock
variable {σ ι O : Type} {A : O → Type} {α β : Type}

def Branch.isQueued : Branch O A β → Bool
  | .queued _ => true
  | _ => false

def Branch.isReturned : Branch O A β → Bool
  | .active (.ret _) => true
  | _ => false

/-- The task can take no step of its own. A task that has returned waits for nothing. -/
def Config.waits : Config O A β α → Bool
  | .run (.op _ _) => true
  | .run _ => false
  | .streaming w bs _ _ =>
    !(decide (bs.countP Branch.isActive < w) && bs.any Branch.isQueued) &&
      !bs.any Branch.isReturned && !bs.all Branch.isDone

def Config.returned : Config O A β α → Bool
  | .run (.ret _) => true
  | _ => false

theorem Config.returned_iff {config : Config O A β α} :
    config.returned = true ↔ ∃ a, config = .run (.ret a) := by
  cases config with
  | run p => cases p <;> simp [returned]
  | streaming => simp [returned]

/-- A task, the time since it began, and when each branch was started and yielded. -/
structure Clocked (σ O : Type) (A : O → Type) (β α : Type) where
  task : Task σ O A β α
  now : ℕ
  began : ℕ → ℕ
  ended : ℕ → ℕ

/-- A step of the task from any shared state, or the passing of time. -/
inductive Timed (σ ι : Type)
  | move (i : ι) (m : Move) (s : σ)
  | pass (d : ℕ)

namespace Clocked

def start (p : Par O A β α) : Clocked σ O A β α :=
  ⟨⟨.run p, []⟩, 0, fun _ => 0, fun _ => 0⟩

/-- The start times after a move. -/
def begun (c : Clocked σ O A β α) : Move → ℕ → ℕ
  | .start =>
    match c.task.config with
    | .streaming _ bs _ _ => Function.update c.began (bs.findIdx Branch.isQueued) c.now
    | .run _ => c.began
  | _ => c.began

/-- The end times after a move. -/
def yielded (c : Clocked σ O A β α) : Move → ℕ → ℕ
  | .yield j => Function.update c.ended j c.now
  | _ => c.ended

def step (perform : ι → (o : O) → σ → Option (A o × σ)) (c : Clocked σ O A β α) :
    Timed σ ι → Option (Clocked σ O A β α)
  | .move i m s => (c.task.step perform i m s).map fun r =>
      ⟨r.1, c.now, c.begun m, c.yielded m⟩
  | .pass d => if c.task.config.waits then some { c with now := c.now + d } else none

/-- The time a branch took. -/
def took (c : Clocked σ O A β α) (j : ℕ) : ℕ := c.ended j - c.began j

end Clocked
end Clock

section Refinement
variable {σ ι O : Type} {A : O → Type} {α β : Type}

def Branch.stage : Branch O A β → Window.Stage
  | .queued _ => .queued
  | .active _ => .active
  | .done => .done

def stageAt (bs : List (Branch O A β)) (j : ℕ) : Window.Stage := (bs[j]?).elim .done Branch.stage

/-- The window that the stream of a task is. -/
def Clocked.window (c : Clocked σ O A β α) (bs : List (Branch O A β)) : Window ℕ :=
  ⟨stageAt bs, c.now, c.began, c.ended⟩

theorem stageAt_of_getElem? {bs : List (Branch O A β)} {j : ℕ} {b : Branch O A β}
    (h : bs[j]? = some b) : stageAt bs j = b.stage := by
  simp [stageAt, h]

theorem stageAt_set {bs : List (Branch O A β)} {j : ℕ} (hj : j < bs.length)
    (b : Branch O A β) : stageAt (bs.set j b) = Function.update (stageAt bs) j b.stage := by
  funext i
  by_cases hij : i = j
  · subst hij
    simp [stageAt, hj]
  · simp [stageAt, hij, List.getElem?_set_ne (Ne.symm hij)]

theorem card_active (bs : List (Branch O A β)) :
    ((Finset.range bs.length).filter fun j => stageAt bs j = .active).card =
      bs.countP Branch.isActive := by
  induction bs using List.reverseRecOn with
  | nil => rfl
  | append_singleton bs b ih =>
    have hbefore : ∀ j ∈ Finset.range bs.length, stageAt (bs ++ [b]) j = stageAt bs j := by
      intro j hj
      simp [stageAt, List.getElem?_append_left (Finset.mem_range.mp hj)]
    have hlast : stageAt (bs ++ [b]) bs.length = b.stage := by simp [stageAt]
    rw [List.length_append, List.length_singleton, Finset.range_add_one, Finset.filter_insert,
      Finset.filter_congr fun j hj => by rw [hbefore j hj], List.countP_append, ← ih, hlast]
    cases b <;> simp [Branch.stage, Branch.isActive]

theorem exists_stageAt {bs : List (Branch O A β)} (P : Window.Stage → Prop) :
    (∃ j ∈ Finset.range bs.length, P (stageAt bs j)) ↔ ∃ b ∈ bs, P b.stage := by
  constructor
  · rintro ⟨j, hj, ht⟩
    have hget := List.getElem?_eq_getElem (Finset.mem_range.mp hj)
    exact ⟨_, List.getElem_mem _, stageAt_of_getElem? hget ▸ ht⟩
  · rintro ⟨b, hb, ht⟩
    obtain ⟨j, hj⟩ := List.getElem?_of_mem hb
    have hlt := (List.getElem?_eq_some_iff.mp hj).1
    exact ⟨j, Finset.mem_range.mpr hlt, (stageAt_of_getElem? hj).symm ▸ ht⟩

theorem forall_stageAt {bs : List (Branch O A β)} {P : Window.Stage → Prop} :
    (∀ j ∈ Finset.range bs.length, P (stageAt bs j)) ↔ ∀ b ∈ bs, P b.stage := by
  have h : (∃ j ∈ Finset.range bs.length, ¬P (stageAt bs j)) ↔ ∃ b ∈ bs, ¬P b.stage :=
    exists_stageAt fun t => ¬P t
  simpa [not_iff_not] using not_congr h

variable {bs bs' : List (Branch O A β)}

theorem waiting_stageAt : (∃ j ∈ Finset.range bs.length, stageAt bs j = .queued) ↔
    bs.any Branch.isQueued = true := by
  refine (exists_stageAt fun t => t = .queued).trans ?_
  rw [List.any_eq_true]
  refine exists_congr fun b => and_congr_right fun _ => ?_
  cases b <;> simp [Branch.isQueued, Branch.stage]

theorem over_stageAt : (∀ j ∈ Finset.range bs.length, stageAt bs j = .done) ↔
    bs.all Branch.isDone = true := by
  refine (forall_stageAt (P := fun t => t = .done)).trans ?_
  rw [List.all_eq_true]
  refine forall_congr' fun b => imp_congr_right fun _ => ?_
  cases b <;> simp [Branch.isDone, Branch.stage]

/-- The branch that starts next is the first that waits. -/
theorem startNext_first (h : startNext bs = some bs') :
    ∃ p, bs[bs.findIdx Branch.isQueued]? = some (.queued p) ∧
      bs' = bs.set (bs.findIdx Branch.isQueued) (.active p) := by
  induction bs generalizing bs' with
  | nil => simp [startNext] at h
  | cons b bs ih =>
    cases b with
    | queued p =>
      simp only [startNext, Option.some.injEq] at h
      exact ⟨p, by simp [List.findIdx_cons, Branch.isQueued],
        by simp [List.findIdx_cons, Branch.isQueued, ← h]⟩
    | active p =>
      obtain ⟨bs₁, hs, rfl⟩ := Option.map_eq_some_iff.mp h
      obtain ⟨q, hq, rfl⟩ := ih hs
      exact ⟨q, by simpa [List.findIdx_cons, Branch.isQueued] using hq,
        by simp [List.findIdx_cons, Branch.isQueued]⟩
    | done =>
      obtain ⟨bs₁, hs, rfl⟩ := Option.map_eq_some_iff.mp h
      obtain ⟨q, hq, rfl⟩ := ih hs
      exact ⟨q, by simpa [List.findIdx_cons, Branch.isQueued] using hq,
        by simp [List.findIdx_cons, Branch.isQueued]⟩

/-- A branch that asks nothing, by its stage: it leaves its place when it takes it. -/
def Quiet (s : Window ℕ) (j : ℕ) : Branch O A β → Prop
  | .queued p => ∃ r, p = .ret r
  | .active p => (∃ r, p = .ret r) ∧ s.began j = s.now
  | .done => s.took j = 0

/-- The branches of a stream of `ps`, as the jobs of a window. -/
structure Flows (ps : List (Prog O A β)) (w : ℕ) (s : Window ℕ) (bs : List (Branch O A β)) :
    Prop where
  length : bs.length = ps.length
  stages : s.stage = stageAt bs
  reached : s.Reached (Finset.range ps.length) w
  quiet : ∀ j b, bs[j]? = some b → (∃ r, ps[j]? = some (.ret r)) → Quiet s j b

variable {ps : List (Prog O A β)} {w j d : ℕ} {s : Window ℕ} {p : Prog O A β}

theorem Flows.running (h : Flows ps w s bs) :
    s.running (Finset.range ps.length) = bs.countP Branch.isActive := by
  rw [Window.running, h.stages, ← h.length]
  exact card_active bs

theorem Flows.waiting (h : Flows ps w s bs) :
    s.Waiting (Finset.range ps.length) ↔ bs.any Branch.isQueued = true := by
  rw [Window.Waiting, h.stages, ← h.length]
  exact waiting_stageAt

theorem Flows.over (h : Flows ps w s bs) :
    s.Over (Finset.range ps.length) ↔ bs.all Branch.isDone = true := by
  rw [Window.Over, h.stages, ← h.length]
  exact over_stageAt

theorem Flows.mem_range (h : Flows ps w s bs) {b : Branch O A β} (hj : bs[j]? = some b) :
    j ∈ Finset.range ps.length := by
  rw [Finset.mem_range, ← h.length]
  exact (List.getElem?_eq_some_iff.mp hj).1

theorem Flows.set_stages (h : Flows ps w s bs) {b : Branch O A β} (hj : bs[j]? = some b)
    (b' : Branch O A β) : Function.update s.stage j b'.stage = stageAt (bs.set j b') := by
  rw [stageAt_set (List.getElem?_eq_some_iff.mp hj).1, h.stages]

theorem flows_opening (hstage : s.stage = stageAt (ps.map Branch.queued)) (hnow : s.now = 0) :
    Flows ps w s (ps.map Branch.queued) where
  length := by simp
  stages := hstage
  reached := by
    refine Window.reached_opening (fun j hj => ?_) hnow
    have hlt := Finset.mem_range.mp hj
    rw [hstage, stageAt_of_getElem? (b := .queued ps[j]) (by simp [hlt])]
    rfl
  quiet j b hb hret := by
    obtain ⟨r, hr⟩ := hret
    obtain rfl : Branch.queued (.ret r) = b := by simpa [hr] using hb
    exact ⟨r, rfl⟩

/-- A branch that starts takes a place. -/
theorem Flows.start (h : Flows ps w s bs) (hj : bs[j]? = some (.queued p))
    (hroom : bs.countP Branch.isActive < w) :
    Flows ps w (s.started j) (bs.set j (.active p)) where
  length := by simpa using h.length
  stages := h.set_stages hj (.active p)
  reached := by
    refine h.reached.step (e := .start j) (if_pos ⟨h.mem_range hj, ?_, ?_⟩)
    · rw [h.stages]
      exact stageAt_of_getElem? hj
    · rwa [h.running]
  quiet i b hb hret := by
    by_cases hij : i = j
    · subst hij
      obtain rfl : Branch.active p = b := by
        simpa [(List.getElem?_eq_some_iff.mp hj).1] using hb
      exact ⟨h.quiet i _ hj hret, Window.started_began_self⟩
    · rw [List.getElem?_set_ne (Ne.symm hij)] at hb
      have hquiet := h.quiet i b hb hret
      cases b <;> simpa [Quiet, Window.took, hij] using hquiet

/-- A branch that asks holds its place. -/
theorem Flows.ask {p' : Prog O A β} (h : Flows ps w s bs) (hj : bs[j]? = some (.active p))
    (hasks : ∀ r, p ≠ .ret r) : Flows ps w s (bs.set j (.active p')) where
  length := by simpa using h.length
  stages := by
    rw [← h.set_stages hj, Branch.stage, Function.update_eq_self_iff.mpr]
    rw [h.stages]
    exact (stageAt_of_getElem? hj).symm
  reached := h.reached
  quiet i b hb hret := by
    by_cases hij : i = j
    · subst hij
      obtain ⟨⟨r, hr⟩, -⟩ := h.quiet i _ hj hret
      exact absurd hr (hasks r)
    · rw [List.getElem?_set_ne (Ne.symm hij)] at hb
      exact h.quiet i b hb hret

/-- A branch that is yielded leaves its place. -/
theorem Flows.yield (h : Flows ps w s bs) (hj : bs[j]? = some (.active p)) :
    Flows ps w (s.finished j) (bs.set j .done) where
  length := by simpa using h.length
  stages := h.set_stages hj .done
  reached := by
    refine h.reached.step (e := .finish j) (if_pos ⟨h.mem_range hj, ?_⟩)
    rw [h.stages]
    exact stageAt_of_getElem? hj
  quiet i b hb hret := by
    by_cases hij : i = j
    · subst hij
      obtain rfl : Branch.done = b := by
        simpa [(List.getElem?_eq_some_iff.mp hj).1] using hb
      obtain ⟨-, hbegan⟩ := h.quiet i _ hj hret
      simp [Quiet, Window.took, hbegan]
    · rw [List.getElem?_set_ne (Ne.symm hij)] at hb
      have hquiet := h.quiet i b hb hret
      cases b <;> simpa [Quiet, Window.took, hij] using hquiet

/-- Time passes while no branch can start or be yielded. -/
theorem Flows.pass (h : Flows ps w s bs)
    (hfull : bs.any Branch.isQueued = true → w ≤ bs.countP Branch.isActive)
    (hgoing : bs.all Branch.isDone = false) (hbusy : bs.any Branch.isReturned = false) :
    Flows ps w { s with now := s.now + d } bs where
  length := h.length
  stages := h.stages
  reached := by
    refine h.reached.step (e := .pass d) (if_pos ⟨fun hw => ?_, ?_⟩)
    · rw [h.running]
      exact hfull (h.waiting.mp hw)
    · rw [h.over, hgoing]
      simp
  quiet i b hb hret := by
    have hquiet := h.quiet i b hb hret
    cases b with
    | queued p => exact hquiet
    | active p =>
      obtain ⟨⟨r, rfl⟩, -⟩ := hquiet
      have := List.any_eq_false.mp hbusy _ (List.mem_of_getElem? hb)
      simp [Branch.isReturned] at this
    | done => exact hquiet

end Refinement

section Runs
variable {σ ι O : Type} {A : O → Type} {α β : Type} {ps : List (Prog O A β)} {w : ℕ}
  {k : List (ℕ × β) → Par O A β α} {c c' : Clocked σ O A β α}
  {perform : ι → (o : O) → σ → Option (A o × σ)}

/-- A task that streams `ps`, from before it starts to after it has ended. -/
inductive Streams (ps : List (Prog O A β)) (w : ℕ) (k : List (ℕ × β) → Par O A β α)
    (c : Clocked σ O A β α) : Prop
  | ready (hconfig : c.task.config = .run (.unordered w ps k)) (hnow : c.now = 0)
  | streaming {bs : List (Branch O A β)} {ys : List (ℕ × β)}
    (hconfig : c.task.config = .streaming w bs ys k) (hflows : Flows ps w (c.window bs) bs)
  | through {bs : List (Branch O A β)} {ys : List (ℕ × β)}
    (hconfig : c.task.config = .run (k ys)) (hflows : Flows ps w (c.window bs) bs)
    (hall : bs.all Branch.isDone = true)

theorem Flows.streams {s : Window ℕ} {bs : List (Branch O A β)} {ys : List (ℕ × β)}
    (h : Flows ps w s bs) (hconfig : c.task.config = .streaming w bs ys k) (hnow : c.now = s.now)
    (hbegan : c.began = s.began) (hended : c.ended = s.ended) : Streams ps w k c := by
  have hwindow : c.window bs = s := by
    rw [Clocked.window, ← h.stages, hnow, hbegan, hended]
  exact .streaming hconfig (hwindow.symm ▸ h)

theorem Streams.move {i : ι} {m : Move} {u : σ} (h : Streams ps w k c)
    (hk : ∀ ys, ∃ a, k ys = .ret a) (hstep : c.step perform (.move i m u) = some c') :
    Streams ps w k c' := by
  obtain ⟨⟨t', u'⟩, htask, rfl⟩ := Option.map_eq_some_iff.mp hstep
  obtain ⟨⟨config, tr⟩, now, began, ended⟩ := c
  cases h with
  | ready hconfig hnow =>
    obtain rfl : config = _ := hconfig
    obtain rfl : now = _ := hnow
    cases m <;> simp only [Task.step, reduceCtorEq, Option.some.injEq] at htask
    obtain ⟨rfl, rfl⟩ := Prod.mk.inj htask
    exact .streaming rfl (flows_opening rfl rfl)
  | through hconfig =>
    obtain rfl : config = _ := hconfig
    rename_i bs ys _ _
    obtain ⟨a, ha⟩ := hk ys
    rw [ha] at htask
    cases m <;> simp [Task.step] at htask
  | @streaming bs ys hconfig hflows =>
    obtain rfl : config = _ := hconfig
    cases m with
    | main => simp [Task.step] at htask
    | start =>
      simp only [Task.step] at htask
      split at htask
      case isFalse => cases htask
      case isTrue hroom =>
        obtain ⟨bs', hst, heq⟩ := Option.map_eq_some_iff.mp htask
        obtain ⟨rfl, rfl⟩ := Prod.mk.inj heq
        obtain ⟨p, hj, rfl⟩ := startNext_first hst
        have hnext := hflows.start hj hroom
        exact hnext.streams rfl rfl rfl rfl
    | branch j =>
      simp only [Task.step] at htask
      split at htask
      case h_2 => cases htask
      case h_1 o f hj =>
        obtain ⟨⟨a, u⟩, -, heq⟩ := Option.map_eq_some_iff.mp htask
        obtain ⟨rfl, rfl⟩ := Prod.mk.inj heq
        have hnext : Flows ps w _ (bs.set j (.active (f a))) := hflows.ask hj fun r hr => by cases hr
        exact hnext.streams rfl rfl rfl rfl
    | yield j =>
      simp only [Task.step] at htask
      split at htask
      case h_2 => cases htask
      case h_1 r hj =>
        obtain ⟨rfl, rfl⟩ := Prod.mk.inj (Option.some.inj htask)
        have hnext := hflows.yield hj
        exact hnext.streams rfl rfl rfl rfl
    | finish =>
      simp only [Task.step] at htask
      split at htask
      case isFalse => cases htask
      case isTrue hall =>
        obtain ⟨rfl, rfl⟩ := Prod.mk.inj (Option.some.inj htask)
        exact .through rfl hflows hall

theorem Streams.pass {d : ℕ} (h : Streams ps w k c) (hk : ∀ ys, ∃ a, k ys = .ret a)
    (hstep : c.step perform (.pass d) = some c') : Streams ps w k c' := by
  simp only [Clocked.step] at hstep
  split at hstep
  case isFalse => cases hstep
  case isTrue hwaits =>
    obtain rfl := Option.some.inj hstep
    cases h with
    | ready hconfig =>
      rw [hconfig] at hwaits
      cases hwaits
    | through hconfig =>
      rename_i bs ys _ _
      obtain ⟨a, ha⟩ := hk ys
      rw [hconfig, ha] at hwaits
      cases hwaits
    | @streaming bs ys hconfig hflows =>
      rw [hconfig, Config.waits] at hwaits
      simp only [Bool.and_eq_true, Bool.not_eq_true', Bool.and_eq_false_iff,
        decide_eq_false_iff_not, Nat.not_lt] at hwaits
      obtain ⟨⟨hfull, hbusy⟩, hgoing⟩ := hwaits
      refine .streaming hconfig (hflows.pass (fun hq => ?_) hgoing hbusy)
      exact hfull.resolve_right (by simp [hq])

/-- Whatever shared states the task meets and however long it waits, its stream is a
window over its branches. -/
theorem streams_run {events : List (Timed σ ι)} (hk : ∀ ys, ∃ a, k ys = .ret a)
    (hrun : Machine.run (Clocked.step perform) (.start (.unordered w ps k)) events = some c) :
    Streams ps w k c := by
  have hkeeps : ∀ (c : Clocked σ O A β α) (e : Timed σ ι) c', True → Streams ps w k c →
      Clocked.step perform c e = some c' → Streams ps w k c' := by
    intro c e c' _ h hstep
    cases e with
    | move i m u => exact h.move hk hstep
    | pass d => exact h.pass hk hstep
  exact Machine.run_invariant hkeeps (fun _ _ => trivial) (.ready rfl rfl) hrun

/-- When the task has returned, every branch is through. -/
theorem Streams.over {a : α} (h : Streams ps w k c) (hret : c.task.config = .run (.ret a)) :
    ∃ s : Window ℕ, s.Reached (Finset.range ps.length) w ∧ s.Over (Finset.range ps.length) ∧
      s.now = c.now ∧ s.began = c.began ∧ s.ended = c.ended ∧
      ∀ j r, ps[j]? = some (.ret r) → s.took j = 0 := by
  cases h with
  | ready hconfig => rw [hconfig] at hret; cases hret
  | streaming hconfig => rw [hconfig] at hret; cases hret
  | @through bs ys hconfig hflows hall =>
    refine ⟨c.window bs, hflows.reached, hflows.over.mpr hall, rfl, rfl, rfl, fun j r hr => ?_⟩
    have hlt : j < bs.length := hflows.length ▸ (List.getElem?_eq_some_iff.mp hr).1
    have hdone := List.all_eq_true.mp hall _ (List.getElem_mem hlt)
    have hquiet := hflows.quiet j _ (List.getElem?_eq_getElem hlt) ⟨r, hr⟩
    cases hb : bs[j] with
    | queued p => rw [hb] at hdone; cases hdone
    | active p => rw [hb] at hdone; cases hdone
    | done => rwa [hb] at hquiet

end Runs
end OracleServer.Interaction
