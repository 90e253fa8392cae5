import Mathlib

/-! Interaction programs over a shared state. A program asks operations one at a time;
each answer comes from one atomic access to the shared state, so between two
operations every other program and the environment may run. `Par` adds a stream of
sequential branches with a bounded window, which yields results as branches complete. -/
namespace OracleServer.Interaction

/-- A sequential program: it returns, or asks an operation and continues with the answer. -/
inductive Prog (O : Type) (A : O → Type) (α : Type)
  | ret (a : α)
  | op (o : O) (k : A o → Prog O A α)

/-- A program that may also run a list of sequential branches, at most `window` of them
at a time, and continue with their results, each beside the index of its branch, in the
order in which the branches completed. -/
inductive Par (O : Type) (A : O → Type) (β α : Type)
  | ret (a : α)
  | op (o : O) (k : A o → Par O A β α)
  | unordered (window : ℕ) (branches : List (Prog O A β)) (k : List (ℕ × β) → Par O A β α)

section Monads
variable {O : Type} {A : O → Type} {α β γ : Type}

def Prog.bind : Prog O A α → (α → Prog O A γ) → Prog O A γ
  | .ret a, f => f a
  | .op o k, f => .op o fun a => (k a).bind f

instance : Monad (Prog O A) where
  pure := .ret
  bind := Prog.bind

def Prog.ask (o : O) : Prog O A (A o) := .op o .ret

def Par.bind : Par O A β α → (α → Par O A β γ) → Par O A β γ
  | .ret a, f => f a
  | .op o k, f => .op o fun a => (k a).bind f
  | .unordered w bs k, f => .unordered w bs fun ys => (k ys).bind f

instance : Monad (Par O A β) where
  pure := .ret
  bind := Par.bind

/-- Run a sequential program in the main thread. -/
def Prog.toPar : Prog O A α → Par O A β α
  | .ret a => .ret a
  | .op o k => .op o fun a => (k a).toPar

/-- What a program returns when its operations are answered so, if all it asks are. -/
def Prog.evalWith (answer : (o : O) → Option (A o)) : Prog O A α → Option α
  | .ret a => some a
  | .op o k => (answer o).bind fun a => (k a).evalWith answer

theorem Prog.bind_assoc {δ : Type} (p : Prog O A α) (f : α → Prog O A γ) (g : γ → Prog O A δ) :
    (p.bind f).bind g = p.bind fun a => (f a).bind g := by
  induction p with
  | ret a => rfl
  | op o k ih => exact congrArg (Prog.op o) (funext ih)

theorem Prog.toPar_bind (p : Prog O A γ) (f : γ → Prog O A α) :
    (p.bind f).toPar (β := β) = p.toPar.bind fun c => (f c).toPar := by
  induction p with
  | ret c => rfl
  | op o k ih => exact congrArg (Par.op o) (funext ih)

def Par.bufferUnordered (window : ℕ) (branches : List (Prog O A β)) :
    Par O A β (List (ℕ × β)) :=
  .unordered window branches .ret

end Monads

/-- One answer a task received, with the shared state that gave it. -/
structure Entry (σ O : Type) (A : O → Type) where
  state : σ
  op : O
  answer : A op

/-- The operation and its answer, without the state. -/
def Entry.exchange {σ O : Type} {A : O → Type} (e : Entry σ O A) : (o : O) × A o :=
  ⟨e.op, e.answer⟩

/-- The answers a task has received, oldest first. -/
abbrev Trace (σ O : Type) (A : O → Type) := List (Entry σ O A)

inductive Branch (O : Type) (A : O → Type) (β : Type)
  | queued (p : Prog O A β)
  | active (p : Prog O A β)
  | done

inductive Config (O : Type) (A : O → Type) (β α : Type)
  | run (p : Par O A β α)
  | streaming (window : ℕ) (branches : List (Branch O A β)) (yielded : List (ℕ × β))
      (k : List (ℕ × β) → Par O A β α)

structure Task (σ O : Type) (A : O → Type) (β α : Type) where
  config : Config O A β α
  trace : Trace σ O A

/-- Which thread of a task moves: the main one, one active branch, or the stream, which
starts the next queued branch, yields a completed one, or ends. -/
inductive Move
  | main
  | start
  | branch (j : ℕ)
  | yield (j : ℕ)
  | finish
  deriving DecidableEq, Repr

section Steps
variable {σ ι O : Type} {A : O → Type} {α β : Type}

def Branch.isActive : Branch O A β → Bool
  | .active _ => true
  | _ => false

def Branch.isDone : Branch O A β → Bool
  | .done => true
  | _ => false

/-- What is left of a branch. -/
def Branch.prog? : Branch O A β → Option (Prog O A β)
  | .queued p => some p
  | .active p => some p
  | .done => none

def startNext : List (Branch O A β) → Option (List (Branch O A β))
  | [] => none
  | .queued p :: bs => some (.active p :: bs)
  | b :: bs => (startNext bs).map (b :: ·)

/-- One step of a task. `perform` answers an operation from the shared state and an
external input. -/
def Task.step (perform : ι → (o : O) → σ → Option (A o × σ)) (i : ι) (m : Move)
    (t : Task σ O A β α) (s : σ) : Option (Task σ O A β α × σ) :=
  match m, t.config with
  | .main, .run (.op o k) =>
    (perform i o s).map fun r => (⟨.run (k r.1), t.trace ++ [⟨s, o, r.1⟩]⟩, r.2)
  | .main, .run (.unordered w bs k) =>
    some (⟨.streaming w (bs.map .queued) [] k, t.trace⟩, s)
  | .start, .streaming w bs ys k =>
    if bs.countP Branch.isActive < w then
      (startNext bs).map fun bs' => (⟨.streaming w bs' ys k, t.trace⟩, s)
    else none
  | .branch j, .streaming w bs ys k =>
    match bs[j]? with
    | some (.active (.op o f)) =>
      (perform i o s).map fun r =>
        (⟨.streaming w (bs.set j (.active (f r.1))) ys k, t.trace ++ [⟨s, o, r.1⟩]⟩, r.2)
    | _ => none
  | .yield j, .streaming w bs ys k =>
    match bs[j]? with
    | some (.active (.ret r)) =>
      some (⟨.streaming w (bs.set j .done) (ys ++ [(j, r)]) k, t.trace⟩, s)
    | _ => none
  | .finish, .streaming _ bs ys k =>
    if bs.all Branch.isDone then some (⟨.run (k ys), t.trace⟩, s) else none
  | _, _ => none

lemma startNext_some {bs bs' : List (Branch O A β)} (h : startNext bs = some bs') :
    ∃ (j : ℕ) (p : Prog O A β), bs[j]? = some (.queued p) ∧ bs' = bs.set j (.active p) := by
  induction bs generalizing bs' with
  | nil => simp [startNext] at h
  | cons b bs ih =>
    cases b with
    | queued p =>
      simp only [startNext, Option.some.injEq] at h
      exact ⟨0, p, rfl, h.symm⟩
    | active p =>
      obtain ⟨bs₁, hs, rfl⟩ := Option.map_eq_some_iff.mp h
      obtain ⟨j, q, hj, rfl⟩ := ih hs
      exact ⟨j + 1, q, hj, rfl⟩
    | done =>
      obtain ⟨bs₁, hs, rfl⟩ := Option.map_eq_some_iff.mp h
      obtain ⟨j, q, hj, rfl⟩ := ih hs
      exact ⟨j + 1, q, hj, rfl⟩

/-- A step of a task either asks one operation, which the trace then records with the
state that answered, or touches neither the trace nor the state. -/
theorem Task.step_trace {perform : ι → (o : O) → σ → Option (A o × σ)} {i : ι} {m : Move}
    {t t' : Task σ O A β α} {s s' : σ} (h : t.step perform i m s = some (t', s')) :
    (t'.trace = t.trace ∧ s' = s) ∨
      ∃ o a, perform i o s = some (a, s') ∧ t'.trace = t.trace ++ [⟨s, o, a⟩] := by
  obtain ⟨c, tr⟩ := t
  unfold Task.step at h
  split at h
  · obtain ⟨⟨a, u⟩, hp, heq⟩ := Option.map_eq_some_iff.mp h
    obtain ⟨rfl, rfl⟩ := Prod.mk.inj heq
    exact .inr ⟨_, a, hp, rfl⟩
  · obtain ⟨rfl, rfl⟩ := Prod.mk.inj (Option.some.inj h)
    exact .inl ⟨rfl, rfl⟩
  · split at h
    · obtain ⟨bs', -, heq⟩ := Option.map_eq_some_iff.mp h
      obtain ⟨rfl, rfl⟩ := Prod.mk.inj heq
      exact .inl ⟨rfl, rfl⟩
    · cases h
  · split at h
    · obtain ⟨⟨a, u⟩, hp, heq⟩ := Option.map_eq_some_iff.mp h
      obtain ⟨rfl, rfl⟩ := Prod.mk.inj heq
      exact .inr ⟨_, a, hp, rfl⟩
    · cases h
  · split at h
    · obtain ⟨rfl, rfl⟩ := Prod.mk.inj (Option.some.inj h)
      exact .inl ⟨rfl, rfl⟩
    · cases h
  · split at h
    · obtain ⟨rfl, rfl⟩ := Prod.mk.inj (Option.some.inj h)
      exact .inl ⟨rfl, rfl⟩
    · cases h
  · cases h

/-- The yielded results of a stream: at most one per branch, from exactly the branches
that are done. -/
structure Yields (bs : List (Branch O A β)) (ys : List (ℕ × β)) : Prop where
  nodup : (ys.map Prod.fst).Nodup
  done_iff : ∀ j, j ∈ ys.map Prod.fst ↔ bs[j]? = some .done

theorem Yields.fresh (bs : List (Prog O A β)) :
    Yields (bs.map Branch.queued) ([] : List (ℕ × β)) where
  nodup := List.nodup_nil
  done_iff j := by simp

theorem Yields.set_active {bs : List (Branch O A β)} {ys : List (ℕ × β)} {j : ℕ}
    {b : Branch O A β} {p : Prog O A β} (h : Yields bs ys) (hj : bs[j]? = some b)
    (hb : b.prog? ≠ none) : Yields (bs.set j (.active p)) ys where
  nodup := h.nodup
  done_iff n := by
    rw [h.done_iff]
    by_cases hn : j = n
    · subst hn
      rw [List.getElem?_set_self', hj]
      cases b with
      | queued q => simp
      | active q => simp
      | done => exact absurd rfl hb
    · rw [List.getElem?_set_ne hn]

theorem Yields.push {bs : List (Branch O A β)} {ys : List (ℕ × β)} {j : ℕ} {p : Prog O A β}
    (h : Yields bs ys) (hj : bs[j]? = some (.active p)) (r : β) :
    Yields (bs.set j .done) (ys ++ [(j, r)]) where
  nodup := by
    have hnot : j ∉ ys.map Prod.fst := by
      rw [h.done_iff, hj]
      simp
    rw [List.map_append, List.nodup_append]
    refine ⟨h.nodup, by simp, ?_⟩
    intro a ha b hb hab
    obtain rfl : b = j := by simpa using hb
    exact hnot (hab ▸ ha)
  done_iff n := by
    rw [List.map_append, List.mem_append, h.done_iff]
    by_cases hn : j = n
    · subst hn
      rw [List.getElem?_set_self', hj]
      simp
    · rw [List.getElem?_set_ne hn]
      simp [Ne.symm hn]

/-- A stream that has ended has yielded every index once. -/
theorem Yields.perm {bs : List (Branch O A β)} {ys : List (ℕ × β)} (h : Yields bs ys)
    (hall : bs.all Branch.isDone = true) : (ys.map Prod.fst).Perm (List.range bs.length) := by
  rw [List.perm_ext_iff_of_nodup h.nodup List.nodup_range]
  intro j
  rw [h.done_iff, List.mem_range]
  constructor
  · intro hj
    exact (List.getElem?_eq_some_iff.mp hj).1
  · intro hj
    rw [List.getElem?_eq_getElem hj]
    have hd := List.all_eq_true.mp hall _ (List.getElem_mem hj)
    cases hb : bs[j] with
    | queued p => rw [hb] at hd; cases hd
    | active p => rw [hb] at hd; cases hd
    | done => rfl

end Steps

end OracleServer.Interaction
