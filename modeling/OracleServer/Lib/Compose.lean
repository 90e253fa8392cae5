import OracleServer.Lib.Interaction
import OracleServer.Lib.Machine

/-! Machines built from others. A run of the whole is a run of each part of which every
step is one; an invariant of a run may rely on what holds at its end, as far as nothing
that is gained on the way is lost again; and a task takes the same step against any
environment that gives it the same answer. -/
namespace OracleServer

namespace Machine
variable {σ τ ε φ : Type*}

theorem run_project {step : σ → ε → Option σ} {part : τ → φ → Option τ} (view : σ → τ)
    (hstep : ∀ s e s', step s e = some s' → ∃ fs, run part (view s) fs = some (view s'))
    {s s' : σ} {es : List ε} (hrun : run step s es = some s') :
    ∃ fs, run part (view s) fs = some (view s') := by
  induction es generalizing s with
  | nil =>
    obtain rfl := Option.some.inj hrun
    exact ⟨[], rfl⟩
  | cons e es ih =>
    obtain ⟨m, hm, hrest⟩ := run_cons.mp hrun
    obtain ⟨fs, hfs⟩ := hstep s e m hm
    obtain ⟨gs, hgs⟩ := ih hrest
    exact ⟨fs ++ gs, run_append.mpr ⟨view m, hfs, hgs⟩⟩

/-- `R` holds between the states of a run, in their order. -/
theorem run_mono {step : σ → ε → Option σ} {R : σ → σ → Prop} (hrefl : ∀ s, R s s)
    (htrans : ∀ {a b c}, R a b → R b c → R a c) (hmono : ∀ s e s', step s e = some s' → R s s')
    {s s' : σ} {es : List ε} (hrun : run step s es = some s') : R s s' := by
  induction es generalizing s with
  | nil =>
    obtain rfl := Option.some.inj hrun
    exact hrefl s
  | cons e es ih =>
    obtain ⟨m, hm, hrest⟩ := run_cons.mp hrun
    exact htrans (hmono s e m hm) (ih hrest)

/-- The invariant rule for an invariant that is kept on the way to `z`. -/
theorem run_toward {step : σ → ε → Option σ} {I : σ → Prop} {R : σ → σ → Prop}
    (hrefl : ∀ s, R s s) (htrans : ∀ {a b c}, R a b → R b c → R a c)
    (hmono : ∀ s e s', step s e = some s' → R s s') {z : σ}
    (hstep : ∀ s e s', R s' z → I s → step s e = some s' → I s') {s : σ} {es : List ε} (hs : I s)
    (hrun : run step s es = some z) : I z := by
  induction es generalizing s with
  | nil =>
    obtain rfl := Option.some.inj hrun
    exact hs
  | cons e es ih =>
    obtain ⟨m, hm, hrest⟩ := run_cons.mp hrun
    exact ih (hstep s e m (run_mono hrefl htrans hmono hrest) hs hm) hrest

end Machine

namespace Interaction
variable {σ ι O : Type} {A : O → Type} {α β : Type}

theorem Task.step_congr {perform perform' : ι → (o : O) → σ → Option (A o × σ)} {i : ι} {m : Move}
    {t t' : Task σ O A β α} {s s' : σ} (h : t.step perform i m s = some (t', s'))
    (hsame : ∀ o a, perform i o s = some (a, s') → t'.trace = t.trace ++ [⟨s, o, a⟩] →
      perform' i o s = some (a, s')) : t.step perform' i m s = some (t', s') := by
  obtain ⟨c, tr⟩ := t
  unfold Task.step at h ⊢
  split at h
  · obtain ⟨⟨a, u⟩, hp, heq⟩ := Option.map_eq_some_iff.mp h
    obtain ⟨rfl, rfl⟩ := Prod.mk.inj heq
    next o k hc =>
    obtain rfl : c = .run (.op o k) := hc
    exact Option.map_eq_some_iff.mpr ⟨(a, u), hsame o a hp rfl, rfl⟩
  · next w bs k hc =>
    obtain rfl : c = .run (.unordered w bs k) := hc
    exact h
  · next w bs ys k hc =>
    obtain rfl : c = .streaming w bs ys k := hc
    exact h
  · next j w bs ys k hc =>
    obtain rfl : c = .streaming w bs ys k := hc
    dsimp only at h ⊢
    split at h
    · next o f hj =>
      obtain ⟨⟨a, u⟩, hp, heq⟩ := Option.map_eq_some_iff.mp h
      obtain ⟨rfl, rfl⟩ := Prod.mk.inj heq
      exact Option.map_eq_some_iff.mpr ⟨(a, u), hsame o a hp rfl, rfl⟩
    · cases h
  · next j w bs ys k hc =>
    obtain rfl : c = .streaming w bs ys k := hc
    exact h
  · next w bs ys k hc =>
    obtain rfl : c = .streaming w bs ys k := hc
    exact h
  · cases h

/-- The operation a thread of the task asks next. -/
def Task.asking (t : Task σ O A β α) (m : Move) : Option O :=
  match m, t.config with
  | .main, .run (.op o _) => some o
  | .branch j, .streaming _ bs _ _ =>
    match bs[j]? with
    | some (.active (.op o _)) => some o
    | _ => none
  | _, _ => none

/-- A thread that moves asks what it was about to ask. -/
theorem Task.step_asks {perform : ι → (o : O) → σ → Option (A o × σ)} {i : ι} {m : Move}
    {t t' : Task σ O A β α} {s s' : σ} (h : t.step perform i m s = some (t', s')) :
    (t.asking m = none ∧ t'.trace = t.trace ∧ s' = s) ∨
      ∃ o a, t.asking m = some o ∧ perform i o s = some (a, s') ∧
        t'.trace = t.trace ++ [⟨s, o, a⟩] := by
  obtain ⟨c, tr⟩ := t
  cases m with
  | main =>
    cases c with
    | streaming w bs ys k => simp [Task.step] at h
    | run p =>
      cases p with
      | ret a => simp [Task.step] at h
      | op o k =>
        obtain ⟨⟨a, u⟩, hp, heq⟩ := Option.map_eq_some_iff.mp h
        obtain ⟨rfl, rfl⟩ := Prod.mk.inj heq
        exact .inr ⟨o, a, rfl, hp, rfl⟩
      | unordered w bs k =>
        obtain ⟨rfl, rfl⟩ := Prod.mk.inj (Option.some.inj h)
        exact .inl ⟨rfl, rfl, rfl⟩
  | branch j =>
    cases c with
    | run p => cases p <;> simp [Task.step] at h
    | streaming w bs ys k =>
      simp only [Task.step] at h
      split at h
      · next o f hj =>
        obtain ⟨⟨a, u⟩, hp, heq⟩ := Option.map_eq_some_iff.mp h
        obtain ⟨rfl, rfl⟩ := Prod.mk.inj heq
        exact .inr ⟨o, a, by simp [Task.asking, hj], hp, rfl⟩
      · cases h
  | start =>
    cases c with
    | run p => cases p <;> simp [Task.step] at h
    | streaming w bs ys k =>
      simp only [Task.step] at h
      split at h
      · obtain ⟨bs', -, heq⟩ := Option.map_eq_some_iff.mp h
        obtain ⟨rfl, rfl⟩ := Prod.mk.inj heq
        exact .inl ⟨rfl, rfl, rfl⟩
      · cases h
  | yield j =>
    cases c with
    | run p => cases p <;> simp [Task.step] at h
    | streaming w bs ys k =>
      simp only [Task.step] at h
      split at h
      · obtain ⟨rfl, rfl⟩ := Prod.mk.inj (Option.some.inj h)
        exact .inl ⟨rfl, rfl, rfl⟩
      · cases h
  | finish =>
    cases c with
    | run p => cases p <;> simp [Task.step] at h
    | streaming w bs ys k =>
      simp only [Task.step] at h
      split at h
      · obtain ⟨rfl, rfl⟩ := Prod.mk.inj (Option.some.inj h)
        exact .inl ⟨rfl, rfl, rfl⟩
      · cases h

lemma Task.asking_branch {w : ℕ} {bs : List (Branch O A β)} {ys : List (ℕ × β)}
    {k : List (ℕ × β) → Par O A β α} {tr : Trace σ O A} {j : ℕ} {o : O} :
    (⟨.streaming w bs ys k, tr⟩ : Task σ O A β α).asking (.branch j) = some o ↔
      ∃ f, bs[j]? = some (.active (.op o f)) := by
  simp only [Task.asking]
  constructor
  · intro h
    split at h
    · next o' f hj =>
      obtain rfl := Option.some.inj h
      exact ⟨f, hj⟩
    · cases h
  · rintro ⟨f, hj⟩
    rw [hj]

/-- What a thread is about to ask, the moves of the others leave alone. -/
theorem Task.asking_kept {perform : ι → (o : O) → σ → Option (A o × σ)} {i : ι} {m m' : Move}
    {t t' : Task σ O A β α} {s s' : σ} {o : O} (h : t.step perform i m s = some (t', s'))
    (hm : m ≠ m') (ho : t.asking m' = some o) : t'.asking m' = some o := by
  obtain ⟨c, tr⟩ := t
  cases m' with
  | main =>
    cases c with
    | streaming w bs ys k => cases ho
    | run p => cases p <;> cases m <;> simp [Task.step] at h hm
  | branch j =>
    cases c with
    | run p => cases ho
    | streaming w bs ys k =>
      -- the branch is active, so the stream neither starts nor yields it, nor ends
      obtain ⟨f, hj⟩ := Task.asking_branch.mp ho
      cases m with
      | main => simp [Task.step] at h
      | start =>
        simp only [Task.step] at h
        split at h
        case isFalse => cases h
        case isTrue =>
          obtain ⟨bs', hstart, heq⟩ := Option.map_eq_some_iff.mp h
          obtain ⟨rfl, rfl⟩ := Prod.mk.inj heq
          obtain ⟨n, p, hn, rfl⟩ := startNext_some hstart
          refine Task.asking_branch.mpr ⟨f, ?_⟩
          have hne : n ≠ j := by
            rintro rfl
            rw [hj] at hn
            cases hn
          rw [List.getElem?_set_ne hne, hj]
      | branch n =>
        have hne : n ≠ j := fun heq => hm (heq ▸ rfl)
        simp only [Task.step] at h
        split at h
        · obtain ⟨⟨a, u⟩, -, heq⟩ := Option.map_eq_some_iff.mp h
          obtain ⟨rfl, rfl⟩ := Prod.mk.inj heq
          exact Task.asking_branch.mpr ⟨f, by rw [List.getElem?_set_ne hne, hj]⟩
        · cases h
      | yield n =>
        simp only [Task.step] at h
        split at h
        · next r hn =>
          obtain ⟨rfl, rfl⟩ := Prod.mk.inj (Option.some.inj h)
          refine Task.asking_branch.mpr ⟨f, ?_⟩
          have hne : n ≠ j := by
            rintro rfl
            rw [hj] at hn
            cases hn
          rw [List.getElem?_set_ne hne, hj]
        · cases h
      | finish =>
        simp only [Task.step] at h
        split at h
        · next hall =>
          have hdone := List.all_eq_true.mp hall _ (List.mem_of_getElem? hj)
          cases hdone
        · cases h
  | _ => cases ho

end Interaction

end OracleServer
