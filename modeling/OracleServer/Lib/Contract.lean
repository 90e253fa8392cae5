import OracleServer.Lib.Interaction

/-! Pre- and postconditions of interaction programs in a shared environment. A
contract fixes an invariant of the shared state, what every step may change (`Rel`),
and what a program owes before it asks an operation (`Pre`). `Safe` and `SafePar` say
that a program meets the contract and a postcondition whatever happens between its
operations; the rules below follow the program text. -/
namespace OracleServer.Interaction

structure Contract (σ ι O : Type) (A : O → Type) where
  perform : ι → (o : O) → σ → Option (A o × σ)
  Admissible : ι → Prop
  Inv : σ → Prop
  Rel : σ → σ → Prop
  Pre : O → σ → Prop
  refl : ∀ s, Rel s s
  trans : ∀ {a b c}, Rel a b → Rel b c → Rel a c
  sound : ∀ {i o s a s'}, Admissible i → Inv s → Pre o s →
    perform i o s = some (a, s') → Inv s' ∧ Rel s s'

abbrev Post (σ O : Type) (A : O → Type) (α : Type) := α → Trace σ O A → σ → Prop

namespace Contract
variable {σ ι O : Type} {A : O → Type} {α β γ : Type} (C : Contract σ ι O A)

/-- What the environment may do while a program is between two operations. -/
structure Later (tr : Trace σ O A) (s : σ) (tr' : Trace σ O A) (s' : σ) : Prop where
  trace : tr <+: tr'
  rel : C.Rel s s'
  inv : C.Inv s'

def Safe (Q : Post σ O A α) : Prog O A α → Trace σ O A → σ → Prop
  | .ret a, tr, s => ∀ tr' s', C.Later tr s tr' s' → Q a tr' s'
  | .op o k, tr, s => ∀ tr' s', C.Later tr s tr' s' → C.Pre o s' ∧
      ∀ i a s'', C.Admissible i → C.perform i o s' = some (a, s'') →
        Safe Q (k a) (tr' ++ [⟨s', o, a⟩]) s''

/-- A stream is safe when its window has room, each branch meets its own postcondition
and the continuation is safe for the results in every order of completion. -/
def SafePar (Q : Post σ O A α) : Par O A β α → Trace σ O A → σ → Prop
  | .ret a, tr, s => ∀ tr' s', C.Later tr s tr' s' → Q a tr' s'
  | .op o k, tr, s => ∀ tr' s', C.Later tr s tr' s' → C.Pre o s' ∧
      ∀ i a s'', C.Admissible i → C.perform i o s' = some (a, s'') →
        SafePar Q (k a) (tr' ++ [⟨s', o, a⟩]) s''
  | .unordered w bs k, tr, s => 0 < w ∧ ∃ P : ℕ → Post σ O A β,
      (∀ (j : ℕ) b, bs[j]? = some b → C.Safe (P j) b tr s) ∧
      ∀ ys tr' s', C.Later tr s tr' s' → (ys.map Prod.fst).Perm (List.range bs.length) →
        (∀ j r, (j, r) ∈ ys → P j r tr' s') → SafePar Q (k ys) tr' s'

section Rules
variable {C} {Q Q' : Post σ O A α} {tr tr' tr'' : Trace σ O A} {s s' s'' : σ}

theorem Later.refl (h : C.Inv s) : C.Later tr s tr s :=
  ⟨List.prefix_rfl, C.refl s, h⟩

theorem Later.trans (h : C.Later tr s tr' s') (h' : C.Later tr' s' tr'' s'') :
    C.Later tr s tr'' s'' :=
  ⟨h.trace.trans h'.trace, C.trans h.rel h'.rel, h'.inv⟩

/-- An operation the contract allows is itself something the environment may see. -/
theorem Later.ask {i : ι} {o : O} {a : A o} (hi : C.Admissible i) (hs : C.Inv s)
    (hpre : C.Pre o s) (h : C.perform i o s = some (a, s')) :
    C.Later tr s (tr ++ [⟨s, o, a⟩]) s' :=
  ⟨List.prefix_append _ _, (C.sound hi hs hpre h).2, (C.sound hi hs hpre h).1⟩

theorem Safe.later {p : Prog O A α} (h : C.Safe Q p tr s) (hl : C.Later tr s tr' s') :
    C.Safe Q p tr' s' := by
  cases p with
  | ret a => exact fun t u hlate => h t u (hl.trans hlate)
  | op o k => exact fun t u hlate => h t u (hl.trans hlate)

/-- Safety may be proved at the moment the program actually moves. -/
theorem Safe.intro {p : Prog O A α}
    (h : ∀ tr' s', C.Later tr s tr' s' → C.Safe Q p tr' s') : C.Safe Q p tr s := by
  cases p with
  | ret a => exact fun t u hl => h t u hl t u (.refl hl.inv)
  | op o k => exact fun t u hl => h t u hl t u (.refl hl.inv)

theorem Safe.mono {p : Prog O A α} (h : C.Safe Q p tr s)
    (hQ : ∀ a tr' s', C.Later tr s tr' s' → Q a tr' s' → Q' a tr' s') : C.Safe Q' p tr s := by
  induction p generalizing tr s with
  | ret a => exact fun t u hl => hQ a t u hl (h t u hl)
  | op o k ih =>
    intro t u hl
    obtain ⟨hpre, hk⟩ := h t u hl
    refine ⟨hpre, fun i a v hi hp => ?_⟩
    have hask : C.Later tr s (t ++ [⟨u, o, a⟩]) v := hl.trans (.ask hi hl.inv hpre hp)
    exact ih a (hk i a v hi hp) fun b t' u' hlate => hQ b t' u' (hask.trans hlate)

theorem Safe.bind {p : Prog O A γ} {f : γ → Prog O A α}
    (h : C.Safe (fun c t u => C.Safe Q (f c) t u) p tr s) : C.Safe Q (p.bind f) tr s := by
  induction p generalizing tr s with
  | ret c => exact .intro h
  | op o k ih =>
    intro t u hl
    obtain ⟨hpre, hk⟩ := h t u hl
    exact ⟨hpre, fun i a v hi hp => ih a (hk i a v hi hp)⟩

/-- A postcondition of a program is one that stays true. -/
theorem Safe.always {p : Prog O A α} (h : C.Safe Q p tr s) :
    C.Safe (fun a t u => ∀ t' u', C.Later t u t' u' → Q a t' u') p tr s := by
  induction p generalizing tr s with
  | ret a => exact fun t u hl t' u' hl' => h t' u' (hl.trans hl')
  | op o k ih =>
    intro t u hl
    obtain ⟨hpre, hk⟩ := h t u hl
    exact ⟨hpre, fun i a v hi hp => ih a (hk i a v hi hp)⟩

theorem SafePar.later {p : Par O A β α} (h : C.SafePar Q p tr s) (hl : C.Later tr s tr' s') :
    C.SafePar Q p tr' s' := by
  cases p with
  | ret a => exact fun t u hlate => h t u (hl.trans hlate)
  | op o k => exact fun t u hlate => h t u (hl.trans hlate)
  | unordered w bs k =>
    obtain ⟨hw, P, hbs, hk⟩ := h
    exact ⟨hw, P, fun j b hj => (hbs j b hj).later hl,
      fun ys t u hlate => hk ys t u (hl.trans hlate)⟩

theorem SafePar.bind {p : Par O A β γ} {f : γ → Par O A β α} (hs : C.Inv s)
    (h : C.SafePar (fun c t u => C.SafePar Q (f c) t u) p tr s) :
    C.SafePar Q (p.bind f) tr s := by
  induction p generalizing tr s with
  | ret c => exact h tr s (.refl hs)
  | op o k ih =>
    intro t u hl
    obtain ⟨hpre, hk⟩ := h t u hl
    exact ⟨hpre, fun i a v hi hp => ih a (C.sound hi hl.inv hpre hp).1 (hk i a v hi hp)⟩
  | unordered w bs k ih =>
    obtain ⟨hw, P, hbs, hk⟩ := h
    exact ⟨hw, P, hbs, fun ys t u hl hperm hys => ih ys hl.inv (hk ys t u hl hperm hys)⟩

theorem SafePar.mono {p : Par O A β α} (hs : C.Inv s) (h : C.SafePar Q p tr s)
    (hQ : ∀ a tr' s', C.Later tr s tr' s' → Q a tr' s' → Q' a tr' s') : C.SafePar Q' p tr s := by
  induction p generalizing tr s with
  | ret a => exact fun t u hl => hQ a t u hl (h t u hl)
  | op o k ih =>
    intro t u hl
    obtain ⟨hpre, hk⟩ := h t u hl
    refine ⟨hpre, fun i a v hi hp => ?_⟩
    have hask : C.Later tr s (t ++ [⟨u, o, a⟩]) v := hl.trans (.ask hi hl.inv hpre hp)
    exact ih a hask.inv (hk i a v hi hp) fun b t' u' hlate => hQ b t' u' (hask.trans hlate)
  | unordered w bs k ih =>
    obtain ⟨hw, P, hbs, hk⟩ := h
    refine ⟨hw, P, hbs, fun ys t u hl hperm hys => ?_⟩
    exact ih ys hl.inv (hk ys t u hl hperm hys) fun b t' u' hlate => hQ b t' u' (hl.trans hlate)

theorem SafePar.always {p : Par O A β α} (hs : C.Inv s) (h : C.SafePar Q p tr s) :
    C.SafePar (fun a t u => ∀ t' u', C.Later t u t' u' → Q a t' u') p tr s := by
  induction p generalizing tr s with
  | ret a => exact fun t u hl t' u' hl' => h t' u' (hl.trans hl')
  | op o k ih =>
    intro t u hl
    obtain ⟨hpre, hk⟩ := h t u hl
    exact ⟨hpre, fun i a v hi hp => ih a (C.sound hi hl.inv hpre hp).1 (hk i a v hi hp)⟩
  | unordered w bs k ih =>
    obtain ⟨hw, P, hbs, hk⟩ := h
    exact ⟨hw, P, hbs, fun ys t u hl hperm hys => ih ys hl.inv (hk ys t u hl hperm hys)⟩

theorem SafePar.lift {p : Prog O A α} (h : C.Safe Q p tr s) :
    C.SafePar (β := β) Q p.toPar tr s := by
  induction p generalizing tr s with
  | ret a => exact h
  | op o k ih =>
    intro t u hl
    obtain ⟨hpre, hk⟩ := h t u hl
    exact ⟨hpre, fun i a v hi hp => ih a (hk i a v hi hp)⟩

end Rules

section Fallible
variable {ε : Type} {C} {Q Q' : Post σ O A α} {tr tr' : Trace σ O A} {s s' : σ}

/-- A fallible program is safe, and what it returns meets `Q` unless it is an error. -/
def SafeOk (C : Contract σ ι O A) (Q : Post σ O A α) (x : ExceptT ε (Prog O A) α)
    (tr : Trace σ O A) (s : σ) : Prop :=
  C.Safe (fun r t u => ∀ a, r = .ok a → Q a t u) x.run tr s

def SafeParOk (C : Contract σ ι O A) (Q : Post σ O A α) (x : ExceptT ε (Par O A β) α)
    (tr : Trace σ O A) (s : σ) : Prop :=
  C.SafePar (fun r t u => ∀ a, r = .ok a → Q a t u) x.run tr s

theorem SafeOk.later {x : ExceptT ε (Prog O A) α} (h : C.SafeOk Q x tr s)
    (hl : C.Later tr s tr' s') : C.SafeOk Q x tr' s' :=
  Safe.later h hl

theorem SafeOk.pure {a : α} (h : ∀ tr' s', C.Later tr s tr' s' → Q a tr' s') :
    C.SafeOk (ε := ε) Q (Pure.pure a) tr s := by
  intro t u hl b hb
  obtain rfl := Except.ok.inj hb
  exact h t u hl

theorem SafeOk.throw {e : ε} : C.SafeOk (ε := ε) Q (throwThe ε e) tr s := by
  intro t u hl b hb
  cases hb

/-- A computation that asks nothing. -/
theorem SafeOk.ofExcept {x : Except ε α}
    (h : ∀ a tr' s', x = .ok a → C.Later tr s tr' s' → Q a tr' s') :
    C.SafeOk (ε := ε) Q (ExceptT.mk (.ret x)) tr s := by
  intro t u hl b hb
  exact h b t u hb hl

theorem SafeOk.mono {x : ExceptT ε (Prog O A) α} (h : C.SafeOk Q x tr s)
    (hQ : ∀ a tr' s', C.Later tr s tr' s' → Q a tr' s' → Q' a tr' s') : C.SafeOk Q' x tr s :=
  Safe.mono h fun _ t u hl hr a ha => hQ a t u hl (hr a ha)

theorem SafeOk.bind {x : ExceptT ε (Prog O A) γ} {f : γ → ExceptT ε (Prog O A) α}
    (h : C.SafeOk (fun c t u => C.SafeOk Q (f c) t u) x tr s) : C.SafeOk Q (x >>= f) tr s := by
  refine Safe.bind (Safe.mono h fun r t u hl hr => ?_)
  cases r with
  | ok c => exact hr c rfl
  | error e =>
    intro t' u' hl' b hb
    cases hb

/-- Ask one operation and continue. -/
theorem SafeOk.ask {o : O} {f : A o → ExceptT ε (Prog O A) α}
    (h : ∀ tr' s', C.Later tr s tr' s' → C.Pre o s' ∧
      ∀ i a s'', C.Admissible i → C.perform i o s' = some (a, s'') →
        C.SafeOk Q (f a) (tr' ++ [⟨s', o, a⟩]) s'') :
    C.SafeOk Q (ExceptT.lift (Prog.ask o) >>= f) tr s := h

theorem SafeParOk.bind {x : ExceptT ε (Par O A β) γ} {f : γ → ExceptT ε (Par O A β) α}
    (hs : C.Inv s) (h : C.SafeParOk (fun c t u => C.SafeParOk Q (f c) t u) x tr s) :
    C.SafeParOk Q (x >>= f) tr s := by
  refine SafePar.bind hs (SafePar.mono hs h fun r t u hl hr => ?_)
  cases r with
  | ok c => exact hr c rfl
  | error e =>
    intro t' u' hl' b hb
    cases hb

theorem SafeParOk.act {x : ExceptT ε (Prog O A) α} (h : C.SafeOk Q x tr s) :
    C.SafeParOk (β := β) Q (ExceptT.mk (Prog.toPar x.run)) tr s :=
  SafePar.lift h

/-- A handler for errors that itself only fails changes nothing about what is returned. -/
theorem SafeParOk.tryCatch {x : ExceptT ε (Par O A β) α} {f : ε → ExceptT ε (Par O A β) α}
    (hs : C.Inv s) (h : C.SafeParOk Q x tr s)
    (hf : ∀ e tr' s', C.Later tr s tr' s' → C.SafeParOk Q (f e) tr' s') :
    C.SafeParOk Q (tryCatchThe ε x f) tr s := by
  refine SafePar.bind hs (SafePar.mono hs (SafePar.always hs h) fun r t u hl hr => ?_)
  cases r with
  | ok c => exact hr
  | error e => exact hf e t u hl

end Fallible

/-- The stream of a task is fine when every branch that is left is safe, and so is the
continuation for the results still to come. -/
structure FineStream (Q : Post σ O A α) (bs : List (Branch O A β)) (ys : List (ℕ × β))
    (k : List (ℕ × β) → Par O A β α) (P : ℕ → Post σ O A β) (tr : Trace σ O A) (s : σ) :
    Prop where
  yields : Yields bs ys
  branch : ∀ (j : ℕ) b p, bs[j]? = some b → b.prog? = some p → C.Safe (P j) p tr s
  yielded : ∀ j r, (j, r) ∈ ys → C.Safe (P j) (.ret r) tr s
  rest : ∀ zs tr' s', C.Later tr s tr' s' → (zs.map Prod.fst).Perm (List.range bs.length) →
    (∀ j r, (j, r) ∈ zs → P j r tr' s') → C.SafePar Q (k zs) tr' s'

/-- A task in the middle of its run is fine when what is left of it is safe. -/
def Fine (Q : Post σ O A α) (t : Task σ O A β α) (s : σ) : Prop :=
  match t.config with
  | .run p => C.SafePar Q p t.trace s
  | .streaming w bs ys k => 0 < w ∧ ∃ P, C.FineStream Q bs ys k P t.trace s

section Tasks
variable {C} {Q : Post σ O A α} {t t' : Task σ O A β α} {s s' : σ} {i : ι} {m : Move}
  {bs : List (Branch O A β)} {ys : List (ℕ × β)} {k : List (ℕ × β) → Par O A β α}
  {P : ℕ → Post σ O A β} {tr tr' : Trace σ O A}

theorem FineStream.later (h : C.FineStream Q bs ys k P tr s) (hl : C.Later tr s tr' s') :
    C.FineStream Q bs ys k P tr' s' where
  yields := h.yields
  branch j b p hj hp := (h.branch j b p hj hp).later hl
  yielded j r hr := (h.yielded j r hr).later hl
  rest zs t u hlate := h.rest zs t u (hl.trans hlate)

/-- Replacing a branch by a safe one keeps the stream fine. -/
theorem FineStream.set {j : ℕ} {b : Branch O A β} {p : Prog O A β}
    (h : C.FineStream Q bs ys k P tr s) (hj : bs[j]? = some b) (hb : b.prog? ≠ none)
    (hp : C.Safe (P j) p tr s) : C.FineStream Q (bs.set j (.active p)) ys k P tr s where
  yields := h.yields.set_active hj hb
  branch n b' q hn hq := by
    by_cases hjn : j = n
    · subst hjn
      rw [List.getElem?_set_self', hj] at hn
      obtain rfl := Option.some.inj hn
      obtain rfl := Option.some.inj hq
      exact hp
    · rw [List.getElem?_set_ne hjn] at hn
      exact h.branch n b' q hn hq
  yielded := h.yielded
  rest zs t u hl hperm := h.rest zs t u hl (by simpa using hperm)

theorem FineStream.push {j : ℕ} {r : β} (h : C.FineStream Q bs ys k P tr s)
    (hj : bs[j]? = some (.active (.ret r))) :
    C.FineStream Q (bs.set j .done) (ys ++ [(j, r)]) k P tr s where
  yields := h.yields.push hj r
  branch n b q hn hq := by
    by_cases hjn : j = n
    · subst hjn
      rw [List.getElem?_set_self', hj] at hn
      obtain rfl := Option.some.inj hn
      cases hq
    · rw [List.getElem?_set_ne hjn] at hn
      exact h.branch n b q hn hq
  yielded n x hx := by
    rcases List.mem_append.mp hx with hx | hx
    · exact h.yielded n x hx
    · obtain ⟨rfl, rfl⟩ : n = j ∧ x = r := by simpa using hx
      exact h.branch n _ _ hj rfl
  rest zs t u hl hperm := h.rest zs t u hl (by simpa using hperm)

theorem Fine.later (h : C.Fine Q t s) (hrel : C.Rel s s') (hinv : C.Inv s') :
    C.Fine Q t s' := by
  have hl : C.Later t.trace s t.trace s' := ⟨List.prefix_rfl, hrel, hinv⟩
  unfold Fine at h ⊢
  cases hc : t.config with
  | run p =>
    rw [hc] at h
    exact h.later hl
  | streaming w bs ys k =>
    rw [hc] at h
    obtain ⟨hw, P, hP⟩ := h
    exact ⟨hw, P, hP.later hl⟩

theorem Fine.done {a : α} (hs : C.Inv s) (h : C.Fine Q t s) (ht : t.config = .run (.ret a)) :
    Q a t.trace s := by
  unfold Fine at h
  rw [ht] at h
  exact h t.trace s (.refl hs)

/-- A step of a fine task keeps the invariant, stays inside `Rel` and leaves it fine. -/
theorem Fine.step (hi : C.Admissible i) (hs : C.Inv s) (h : C.Fine Q t s)
    (hstep : t.step C.perform i m s = some (t', s')) :
    C.Inv s' ∧ C.Rel s s' ∧ C.Fine Q t' s' := by
  obtain ⟨c, tr⟩ := t
  cases c with
  | run p =>
    cases p with
    | ret a => cases m <;> simp [Task.step] at hstep
    | op o k =>
      cases m <;> simp only [Task.step, reduceCtorEq] at hstep
      obtain ⟨⟨a, u⟩, hp, heq⟩ := Option.map_eq_some_iff.mp hstep
      obtain ⟨rfl, rfl⟩ := Prod.mk.inj heq
      obtain ⟨hpre, hk⟩ := h tr s (.refl hs)
      exact ⟨(C.sound hi hs hpre hp).1, (C.sound hi hs hpre hp).2, hk i a u hi hp⟩
    | unordered w bs k =>
      cases m <;> simp only [Task.step, reduceCtorEq, Option.some.injEq] at hstep
      obtain ⟨rfl, rfl⟩ := Prod.mk.inj hstep
      obtain ⟨hw, P, hbs, hk⟩ := h
      refine ⟨hs, C.refl s, hw, P, Yields.fresh bs, fun j b p hj hp => ?_, by simp,
        fun zs u v hl hperm => hk zs u v hl (by simpa using hperm)⟩
      obtain ⟨q, hq, rfl⟩ : ∃ q, bs[j]? = some q ∧ Branch.queued q = b := by
        simpa using hj
      obtain rfl := Option.some.inj hp
      exact hbs j q hq
  | streaming w bs ys k =>
    obtain ⟨hw, P, hP⟩ := h
    cases m with
    | main => simp [Task.step] at hstep
    | start =>
      simp only [Task.step] at hstep
      split at hstep
      case isFalse => cases hstep
      case isTrue =>
        obtain ⟨bs', hst, heq⟩ := Option.map_eq_some_iff.mp hstep
        obtain ⟨rfl, rfl⟩ := Prod.mk.inj heq
        obtain ⟨j, p, hj, rfl⟩ := startNext_some hst
        exact ⟨hs, C.refl s, hw, P, hP.set hj (by simp [Branch.prog?]) (hP.branch j _ p hj rfl)⟩
    | branch j =>
      simp only [Task.step] at hstep
      split at hstep
      case h_2 => cases hstep
      case h_1 o f hj =>
        obtain ⟨⟨a, u⟩, hp, heq⟩ := Option.map_eq_some_iff.mp hstep
        obtain ⟨rfl, rfl⟩ := Prod.mk.inj heq
        obtain ⟨hpre, hf⟩ := hP.branch j _ _ hj rfl tr s (.refl hs)
        have hl : C.Later tr s (tr ++ [⟨s, o, a⟩]) u := .ask hi hs hpre hp
        exact ⟨hl.inv, hl.rel, hw, P,
          (hP.later hl).set hj (by simp [Branch.prog?]) (hf i a u hi hp)⟩
    | yield j =>
      simp only [Task.step] at hstep
      split at hstep
      case h_2 => cases hstep
      case h_1 r hj =>
        obtain ⟨rfl, rfl⟩ := Prod.mk.inj (Option.some.inj hstep)
        exact ⟨hs, C.refl s, hw, P, hP.push hj⟩
    | finish =>
      simp only [Task.step] at hstep
      split at hstep
      case isFalse => cases hstep
      case isTrue hall =>
        obtain ⟨rfl, rfl⟩ := Prod.mk.inj (Option.some.inj hstep)
        refine ⟨hs, C.refl s, hP.rest ys tr s (.refl hs) (hP.yields.perm hall) ?_⟩
        intro j r hr
        exact hP.yielded j r hr tr s (.refl hs)

end Tasks

section Alike
variable {C} {τ : Type} {Q : Post σ O A α} {s s' : σ} {i : ι} {m : Move}

/-- Two tasks with the same text left to run and the same answers so far; the states
that gave the answers may differ. -/
structure Alike (t : Task σ O A β α) (t₂ : Task τ O A β α) : Prop where
  config : t₂.config = t.config
  answers : t₂.trace.map Entry.exchange = t.trace.map Entry.exchange

/-- Two states that answer alike every operation the contract allows take the same step. -/
theorem Fine.step_alike {perform' : ι → (o : O) → τ → Option (A o × τ)} {R : σ → τ → Prop}
    {u : τ} {t t' : Task σ O A β α} {t₂ : Task τ O A β α}
    (halike : ∀ o a s', C.Pre o s → C.perform i o s = some (a, s') →
      ∃ u', perform' i o u = some (a, u') ∧ R s' u')
    (hs : C.Inv s) (hR : R s u) (h : C.Fine Q t s) (ht : Alike t t₂)
    (hstep : t.step C.perform i m s = some (t', s')) :
    ∃ t₂' u', t₂.step perform' i m u = some (t₂', u') ∧ Alike t' t₂' ∧ R s' u' := by
  obtain ⟨c, tr⟩ := t
  obtain ⟨c₂, tr₂⟩ := t₂
  obtain ⟨hc, hans⟩ := ht
  obtain rfl : c₂ = c := hc
  -- the answers match before and after one more answer
  have hsnoc : ∀ (o : O) (a : A o), List.map Entry.exchange (tr₂ ++ [⟨u, o, a⟩]) =
      List.map Entry.exchange (tr ++ [⟨s, o, a⟩]) := by
    intro o a
    rw [List.map_append, List.map_append, hans]
    rfl
  cases c₂ with
  | run p =>
    cases p with
    | ret a => cases m <;> simp [Task.step] at hstep
    | op o k =>
      cases m <;> simp only [Task.step, reduceCtorEq] at hstep
      obtain ⟨⟨a, v⟩, hp, heq⟩ := Option.map_eq_some_iff.mp hstep
      obtain ⟨rfl, rfl⟩ := Prod.mk.inj heq
      obtain ⟨u', hu', hR'⟩ := halike o a v (h tr s (.refl hs)).1 hp
      exact ⟨⟨.run (k a), tr₂ ++ [⟨u, o, a⟩]⟩, u', by simp only [Task.step, hu', Option.map_some],
        ⟨rfl, hsnoc o a⟩, hR'⟩
    | unordered w bs k =>
      cases m <;> simp only [Task.step, reduceCtorEq, Option.some.injEq] at hstep
      obtain ⟨rfl, rfl⟩ := Prod.mk.inj hstep
      exact ⟨_, u, rfl, ⟨rfl, hans⟩, hR⟩
  | streaming w bs ys k =>
    cases m with
    | main => simp [Task.step] at hstep
    | start =>
      simp only [Task.step] at hstep ⊢
      split at hstep
      case isFalse => cases hstep
      case isTrue hw =>
        obtain ⟨bs', hst, heq⟩ := Option.map_eq_some_iff.mp hstep
        obtain ⟨rfl, rfl⟩ := Prod.mk.inj heq
        exact ⟨⟨.streaming w bs' ys k, tr₂⟩, u, by rw [if_pos hw, hst]; rfl, ⟨rfl, hans⟩, hR⟩
    | branch j =>
      simp only [Task.step] at hstep ⊢
      split at hstep
      case h_2 => cases hstep
      case h_1 o f hj =>
        obtain ⟨⟨a, v⟩, hp, heq⟩ := Option.map_eq_some_iff.mp hstep
        obtain ⟨rfl, rfl⟩ := Prod.mk.inj heq
        obtain ⟨-, P, hP⟩ := h
        obtain ⟨u', hu', hR'⟩ := halike o a v (hP.branch j _ _ hj rfl tr s (.refl hs)).1 hp
        exact ⟨⟨.streaming w (bs.set j (.active (f a))) ys k, tr₂ ++ [⟨u, o, a⟩]⟩, u',
          by simp only [hu', Option.map_some], ⟨rfl, hsnoc o a⟩, hR'⟩
    | yield j =>
      simp only [Task.step] at hstep ⊢
      split at hstep
      case h_2 => cases hstep
      case h_1 r hj =>
        obtain ⟨rfl, rfl⟩ := Prod.mk.inj (Option.some.inj hstep)
        exact ⟨⟨.streaming w (bs.set j .done) (ys ++ [(j, r)]) k, tr₂⟩, u, rfl,
          ⟨rfl, hans⟩, hR⟩
    | finish =>
      simp only [Task.step] at hstep ⊢
      split at hstep
      case isFalse => cases hstep
      case isTrue hall =>
        obtain ⟨rfl, rfl⟩ := Prod.mk.inj (Option.some.inj hstep)
        exact ⟨⟨.run (k ys), tr₂⟩, u, by rw [if_pos hall], ⟨rfl, hans⟩, hR⟩

end Alike

end Contract

end OracleServer.Interaction
