import OracleServer.Lib.Interaction
import OracleServer.Lib.Machine

/-! The order in which a program asks its operations. A protocol is a partial step
function `δ` on phases; a program obeys it when every operation it may ask is allowed
in the phase it has reached. The trace of a task that obeys a protocol is a word the
protocol accepts, so what the phases say of words holds of traces. -/
namespace OracleServer.Interaction

variable {σ ι O M : Type} {A : O → Type} {α β γ ε : Type}

/-- Every operation the program may ask satisfies `P`. -/
def Prog.Uses (P : O → Prop) : Prog O A α → Prop
  | .ret _ => True
  | .op o k => P o ∧ ∀ a, (k a).Uses P

/-- The program follows `δ` from a phase, and what it returns meets `Q` in the phase it
then has reached. Branches may only ask what leaves the phase as it is. -/
def Par.Obeys (δ : M → O → Option M) (Q : α → M → Prop) : M → Par O A β α → Prop
  | m, .ret a => Q a m
  | m, .op o k => ∃ m', δ m o = some m' ∧ ∀ a, (k a).Obeys δ Q m'
  | m, .unordered _ bs k =>
    (∀ b ∈ bs, b.Uses fun o => δ m o = some m) ∧ ∀ ys, (k ys).Obeys δ Q m

section Uses
variable {P : O → Prop}

theorem Prog.Uses.mono {P' : O → Prop} {p : Prog O A α} (h : p.Uses P) (hP : ∀ o, P o → P' o) :
    p.Uses P' := by
  induction p with
  | ret a => trivial
  | op o k ih => exact ⟨hP o h.1, fun a => ih a (h.2 a)⟩

theorem Prog.Uses.bind {p : Prog O A α} {f : α → Prog O A γ} (hp : p.Uses P)
    (hf : ∀ a, (f a).Uses P) : (p.bind f).Uses P := by
  induction p with
  | ret a => exact hf a
  | op o k ih => exact ⟨hp.1, fun a => ih a (hp.2 a)⟩

/-- The same, of a program that may fail. -/
def UsesOk (P : O → Prop) (x : ExceptT ε (Prog O A) α) : Prop := x.run.Uses P

theorem UsesOk.bind {x : ExceptT ε (Prog O A) α} {f : α → ExceptT ε (Prog O A) γ}
    (hx : UsesOk P x) (hf : ∀ a, UsesOk P (f a)) : UsesOk P (x >>= f) := by
  refine Prog.Uses.bind hx fun r => ?_
  cases r with
  | ok a => exact hf a
  | error e => exact trivial

theorem UsesOk.pure (a : α) : UsesOk P (Pure.pure a : ExceptT ε (Prog O A) α) := trivial

theorem UsesOk.throw (e : ε) :
    UsesOk P (throwThe ε e : ExceptT ε (Prog O A) α) := trivial

theorem UsesOk.ofExcept (x : Except ε α) : UsesOk (A := A) P (ExceptT.mk (.ret x)) := trivial

theorem UsesOk.ask {o : O} (h : P o) :
    UsesOk (A := A) (ε := ε) P (ExceptT.lift (Prog.ask o)) :=
  ⟨h, fun _ => trivial⟩

end Uses

section Obeys
variable {δ : M → O → Option M} {Q Q' : α → M → Prop} {m : M}

theorem Par.Obeys.mono {p : Par O A β α} (h : p.Obeys δ Q m) (hQ : ∀ a n, Q a n → Q' a n) :
    p.Obeys δ Q' m := by
  induction p generalizing m with
  | ret a => exact hQ a m h
  | op o k ih =>
    obtain ⟨m', hm', hk⟩ := h
    exact ⟨m', hm', fun a => ih a (hk a)⟩
  | unordered w bs k ih => exact ⟨h.1, fun ys => ih ys (h.2 ys)⟩

theorem Par.Obeys.bind {p : Par O A β γ} {f : γ → Par O A β α}
    (h : p.Obeys δ (fun c n => (f c).Obeys δ Q n) m) : (p.bind f).Obeys δ Q m := by
  induction p generalizing m with
  | ret c => exact h
  | op o k ih =>
    obtain ⟨m', hm', hk⟩ := h
    exact ⟨m', hm', fun a => ih a (hk a)⟩
  | unordered w bs k ih => exact ⟨h.1, fun ys => ih ys (h.2 ys)⟩

/-- A sequential program whose operations all keep the phase. -/
theorem Par.Obeys.lift {p : Prog O A α} (h : p.Uses fun o => δ m o = some m)
    (hQ : ∀ a, Q a m) : (p.toPar (β := β)).Obeys δ Q m := by
  induction p with
  | ret a => exact hQ a
  | op o k ih => exact ⟨m, h.1, fun a => ih a (h.2 a)⟩

/-- Operations that keep the phase, before more of the program. -/
theorem Par.Obeys.silent {p : Prog O A γ} {f : γ → Prog O A α}
    (h : p.Uses fun o => δ m o = some m) (hf : ∀ c, ((f c).toPar (β := β)).Obeys δ Q m) :
    ((p.bind f).toPar (β := β)).Obeys δ Q m := by
  rw [Prog.toPar_bind]
  exact Par.Obeys.bind (Par.Obeys.lift h hf)

/-- The same, of a program that may fail: `Q` is asked of results only. -/
def ObeysOk (δ : M → O → Option M) (Q : α → M → Prop) (m : M) (x : ExceptT ε (Par O A β) α) :
    Prop :=
  x.run.Obeys δ (fun r n => ∀ a, r = .ok a → Q a n) m

theorem ObeysOk.bind {x : ExceptT ε (Par O A β) γ} {f : γ → ExceptT ε (Par O A β) α}
    (h : ObeysOk δ (fun c n => ObeysOk δ Q n (f c)) m x) : ObeysOk δ Q m (x >>= f) := by
  refine Par.Obeys.bind (Par.Obeys.mono h fun r n hr => ?_)
  cases r with
  | ok c => exact hr c rfl
  | error e => exact fun a ha => nomatch ha

/-- A handler that may run in any phase. -/
theorem ObeysOk.tryCatch {x : ExceptT ε (Par O A β) α} {f : ε → ExceptT ε (Par O A β) α}
    (h : ObeysOk δ Q m x) (hf : ∀ e n, ObeysOk δ Q n (f e)) :
    ObeysOk δ Q m (tryCatchThe ε x f) := by
  refine Par.Obeys.bind (Par.Obeys.mono h fun r n hr => ?_)
  cases r with
  | ok c => exact hr
  | error e => exact hf e n

theorem ObeysOk.act {x : ExceptT ε (Prog O A) α} (h : UsesOk (fun o => δ m o = some m) x)
    (hQ : ∀ a, Q a m) : ObeysOk (β := β) δ Q m (ExceptT.mk (Prog.toPar x.run)) :=
  Par.Obeys.lift h fun _ a _ => hQ a

end Obeys

/-- The answers so far are a word of the protocol, and what is left obeys it. -/
def Task.Tracks (δ : M → O → Option M) (Q : α → M → Prop) (m₀ : M) (t : Task σ O A β α) : Prop :=
  ∃ m, Machine.run δ m₀ (t.trace.map Entry.op) = some m ∧
    match t.config with
    | .run p => p.Obeys δ Q m
    | .streaming _ bs _ k =>
      (∀ (j : ℕ) b p, bs[j]? = some b → b.prog? = some p → p.Uses fun o => δ m o = some m) ∧
        ∀ ys, (k ys).Obeys δ Q m

section Tracks
variable {δ : M → O → Option M} {Q : α → M → Prop} {m₀ : M}

theorem run_trace_snoc {tr : Trace σ O A} {e : Entry σ O A} {m m' : M}
    (h : Machine.run δ m₀ (tr.map Entry.op) = some m) (he : δ m e.op = some m') :
    Machine.run δ m₀ ((tr ++ [e]).map Entry.op) = some m' := by
  rw [List.map_append, List.map_singleton, Machine.run_snoc]
  exact ⟨m, h, he⟩

/-- Replacing a branch by one that keeps the promise. -/
theorem uses_set {bs : List (Branch O A β)} {P : O → Prop} {b : Branch O A β}
    (h : ∀ (j : ℕ) b p, bs[j]? = some b → b.prog? = some p → p.Uses P)
    (hb : ∀ p, b.prog? = some p → p.Uses P) (j n : ℕ) (b' : Branch O A β) (p : Prog O A β)
    (hn : (bs.set j b)[n]? = some b') (hp : b'.prog? = some p) : p.Uses P := by
  rw [List.getElem?_set] at hn
  split at hn
  · split at hn
    · obtain rfl := Option.some.inj hn
      exact hb p hp
    · cases hn
  · exact h n b' p hn hp

theorem Task.Tracks.step {perform : ι → (o : O) → σ → Option (A o × σ)} {i : ι} {mv : Move}
    {t t' : Task σ O A β α} {s s' : σ} (h : t.Tracks δ Q m₀)
    (hstep : t.step perform i mv s = some (t', s')) : t'.Tracks δ Q m₀ := by
  obtain ⟨c, tr⟩ := t
  obtain ⟨m, hword, hrest⟩ := h
  cases c with
  | run p =>
    cases p with
    | ret a => cases mv <;> simp [Task.step] at hstep
    | op o k =>
      cases mv <;> simp only [Task.step, reduceCtorEq] at hstep
      obtain ⟨⟨a, u⟩, -, heq⟩ := Option.map_eq_some_iff.mp hstep
      obtain ⟨rfl, rfl⟩ := Prod.mk.inj heq
      obtain ⟨m', hm', hk⟩ := hrest
      exact ⟨m', run_trace_snoc hword hm', hk a⟩
    | unordered w bs k =>
      cases mv <;> simp only [Task.step, reduceCtorEq, Option.some.injEq] at hstep
      obtain ⟨rfl, rfl⟩ := Prod.mk.inj hstep
      refine ⟨m, hword, fun j b p hj hp => ?_, hrest.2⟩
      obtain ⟨q, hq, rfl⟩ : ∃ q, bs[j]? = some q ∧ Branch.queued q = b := by
        simpa using hj
      obtain rfl := Option.some.inj hp
      exact hrest.1 q (List.mem_of_getElem? hq)
  | streaming w bs ys k =>
    obtain ⟨hbs, hk⟩ := hrest
    cases mv with
    | main => simp [Task.step] at hstep
    | start =>
      simp only [Task.step] at hstep
      split at hstep
      case isFalse => cases hstep
      case isTrue =>
        obtain ⟨bs', hst, heq⟩ := Option.map_eq_some_iff.mp hstep
        obtain ⟨rfl, rfl⟩ := Prod.mk.inj heq
        obtain ⟨j, p, hj, rfl⟩ := startNext_some hst
        refine ⟨m, hword, uses_set hbs (fun q hq => ?_) j, hk⟩
        exact hbs j (.queued p) q hj hq
    | branch j =>
      simp only [Task.step] at hstep
      split at hstep
      case h_2 => cases hstep
      case h_1 o f hj =>
        obtain ⟨⟨a, u⟩, -, heq⟩ := Option.map_eq_some_iff.mp hstep
        obtain ⟨rfl, rfl⟩ := Prod.mk.inj heq
        have hop := hbs j _ _ hj rfl
        refine ⟨m, run_trace_snoc hword hop.1, uses_set hbs (fun q hq => ?_) j, hk⟩
        exact Option.some.inj hq ▸ hop.2 a
    | yield j =>
      simp only [Task.step] at hstep
      split at hstep
      case h_2 => cases hstep
      case h_1 r hj =>
        obtain ⟨rfl, rfl⟩ := Prod.mk.inj (Option.some.inj hstep)
        refine ⟨m, hword, uses_set hbs (fun q hq => ?_) j, hk⟩
        cases hq
    | finish =>
      simp only [Task.step] at hstep
      split at hstep
      case isFalse => cases hstep
      case isTrue =>
        obtain ⟨rfl, rfl⟩ := Prod.mk.inj (Option.some.inj hstep)
        exact ⟨m, hword, hk ys⟩

end Tracks

section Words
variable {δ : M → O → Option M} {rank : M → ℕ}

/-- Where a letter of an accepted word was read, when phases only go up. -/
theorem run_mem (hrank : ∀ m o m', δ m o = some m' → rank m ≤ rank m') {m m' : M} {ops : List O}
    (h : Machine.run δ m ops = some m') :
    rank m ≤ rank m' ∧ ∀ o ∈ ops, ∃ n n', δ n o = some n' ∧ rank m ≤ rank n ∧ rank n' ≤ rank m' := by
  induction ops generalizing m with
  | nil =>
    obtain rfl := Option.some.inj h
    exact ⟨le_rfl, by simp⟩
  | cons o ops ih =>
    obtain ⟨n, hn, hrun⟩ := Machine.run_cons.mp h
    obtain ⟨hle, hmem⟩ := ih hrun
    have hmn := hrank m o n hn
    refine ⟨hmn.trans hle, fun o' ho' => ?_⟩
    rcases List.mem_cons.mp ho' with rfl | ho'
    · exact ⟨m, n, hn, le_rfl, hle⟩
    · obtain ⟨n₁, n₂, hδ, h₁, h₂⟩ := hmem o' ho'
      exact ⟨n₁, n₂, hδ, hmn.trans h₁, h₂⟩

/-- An operation of a kind `P` that crosses the rank `c` is asked at most once, and what is
asked after it is asked from `c` on. -/
theorem trace_once (hrank : ∀ m o m', δ m o = some m' → rank m ≤ rank m') {m m' : M}
    {tr : Trace σ O A} {e : Entry σ O A} {P : O → Prop} {c : ℕ}
    (h : Machine.run δ m (tr.map Entry.op) = some m') (he : e ∈ tr) (hP : P e.op)
    (hcross : ∀ n o n', P o → δ n o = some n' → rank n < c ∧ c ≤ rank n') :
    ∃ pre post, tr = pre ++ e :: post ∧ (∀ e' ∈ pre ++ post, ¬ P e'.op) ∧
      ∀ e' ∈ post, ∃ n n', δ n e'.op = some n' ∧ c ≤ rank n := by
  obtain ⟨pre, post, rfl⟩ := List.append_of_mem he
  rw [List.map_append, List.map_cons, Machine.run_append] at h
  obtain ⟨m₁, hpre, hrest⟩ := h
  obtain ⟨m₂, hm₂, hpost⟩ := Machine.run_cons.mp hrest
  obtain ⟨hlt, hge⟩ := hcross m₁ e.op m₂ hP hm₂
  have hafter : ∀ e' ∈ post, ∃ n n', δ n e'.op = some n' ∧ c ≤ rank n := by
    intro e' he'
    obtain ⟨n, n', hδ, hle, -⟩ := (run_mem hrank hpost).2 e'.op (List.mem_map_of_mem he')
    exact ⟨n, n', hδ, by omega⟩
  refine ⟨pre, post, rfl, fun e' he' hP' => ?_, hafter⟩
  rcases List.mem_append.mp he' with he' | he'
  · obtain ⟨n, n', hδ, -, hle⟩ := (run_mem hrank hpre).2 e'.op (List.mem_map_of_mem he')
    have := hcross n e'.op n' hP' hδ
    omega
  · obtain ⟨n, n', hδ, hle⟩ := hafter e' he'
    have := hcross n e'.op n' hP' hδ
    omega

end Words

end OracleServer.Interaction
