import OracleServer.Lib.Contract
import OracleServer.Lib.Protocol

/-! Tasks finish. Every step of a task makes what is left of it smaller, so it takes no
infinite sequence of steps, and a task that is safe can always go on until it returns.
What a program returns in every environment of a contract follows from these. -/
namespace OracleServer.Interaction

open Relation

variable {σ ι O : Type} {A : O → Type} {α β γ ε : Type}

/-- `b'` is what is left of the branch `b` after one step of it. -/
inductive Branch.Next : Branch O A β → Branch O A β → Prop
  | start (p : Prog O A β) : Next (.active p) (.queued p)
  | ask (o : O) (k : A o → Prog O A β) (a : A o) : Next (.active (k a)) (.active (.op o k))
  | yield (r : β) : Next .done (.active (.ret r))

theorem Branch.next_wellFounded : WellFounded (Branch.Next (O := O) (A := A) (β := β)) := by
  have hdone : Acc Branch.Next (Branch.done : Branch O A β) := ⟨_, fun b hb => nomatch hb⟩
  have hactive : ∀ p : Prog O A β, Acc Branch.Next (Branch.active p) := by
    intro p
    induction p with
    | ret r =>
      refine ⟨_, fun b hb => ?_⟩
      cases hb
      exact hdone
    | op o k ih =>
      refine ⟨_, fun b hb => ?_⟩
      cases hb with
      | ask o k a => exact ih a
  refine ⟨fun b => ?_⟩
  cases b with
  | queued p =>
    refine ⟨_, fun b hb => ?_⟩
    cases hb
    exact hactive p
  | active p => exact hactive p
  | done => exact hdone

/-- One step of a task, without the state and the answers' origin. -/
inductive Config.Next : Config O A β α → Config O A β α → Prop
  | ask (o : O) (k : A o → Par O A β α) (a : A o) : Next (.run (k a)) (.run (.op o k))
  | enter (w : ℕ) (bs : List (Prog O A β)) (k : List (ℕ × β) → Par O A β α) :
    Next (.streaming w (bs.map .queued) [] k) (.run (.unordered w bs k))
  | branch {w : ℕ} {bs : List (Branch O A β)} {ys ys' : List (ℕ × β)}
    {k : List (ℕ × β) → Par O A β α} {j : ℕ} {b b' : Branch O A β} (hj : bs[j]? = some b)
    (hb : Branch.Next b' b) : Next (.streaming w (bs.set j b') ys' k) (.streaming w bs ys k)
  | leave (w : ℕ) (bs : List (Branch O A β)) (ys : List (ℕ × β)) (k : List (ℕ × β) → Par O A β α) :
    Next (.run (k ys)) (.streaming w bs ys k)

theorem Task.step_next {perform : ι → (o : O) → σ → Option (A o × σ)} {i : ι} {m : Move}
    {t t' : Task σ O A β α} {s s' : σ} (h : t.step perform i m s = some (t', s')) :
    Config.Next t'.config t.config := by
  unfold Task.step at h
  split at h
  · next hconfig =>
    obtain ⟨⟨a, u⟩, -, heq⟩ := Option.map_eq_some_iff.mp h
    obtain ⟨rfl, rfl⟩ := Prod.mk.inj heq
    exact hconfig ▸ .ask _ _ a
  · next hconfig =>
    obtain ⟨rfl, rfl⟩ := Prod.mk.inj (Option.some.inj h)
    exact hconfig ▸ .enter _ _ _
  · next hconfig =>
    split at h
    · obtain ⟨bs', hbs, heq⟩ := Option.map_eq_some_iff.mp h
      obtain ⟨rfl, rfl⟩ := Prod.mk.inj heq
      obtain ⟨j, p, hj, rfl⟩ := startNext_some hbs
      exact hconfig ▸ .branch hj (.start p)
    · cases h
  · next hconfig =>
    split at h
    · next hj =>
      obtain ⟨⟨a, u⟩, -, heq⟩ := Option.map_eq_some_iff.mp h
      obtain ⟨rfl, rfl⟩ := Prod.mk.inj heq
      exact hconfig ▸ .branch hj (.ask _ _ a)
    · cases h
  · next hconfig =>
    split at h
    · next hj =>
      obtain ⟨rfl, rfl⟩ := Prod.mk.inj (Option.some.inj h)
      exact hconfig ▸ .branch hj (.yield _)
    · cases h
  · next hconfig =>
    split at h
    · obtain ⟨rfl, rfl⟩ := Prod.mk.inj (Option.some.inj h)
      exact hconfig ▸ .leave _ _ _ _
    · cases h
  · cases h

/-- Replacing one branch by what is left of it is a step of the multiset of branches. -/
theorem cutExpand_set {bs : List (Branch O A β)} {j : ℕ} {b b' : Branch O A β}
    (hj : bs[j]? = some b) (hb : Branch.Next b' b) :
    CutExpand Branch.Next (↑(bs.set j b') : Multiset (Branch O A β)) ↑bs := by
  obtain ⟨hlt, rfl⟩ := List.getElem?_eq_some_iff.mp hj
  have hleft : (↑(bs.set j b') : Multiset (Branch O A β)) = ↑(bs.eraseIdx j) + {b'} := by
    rw [Multiset.coe_eq_coe.mpr (List.set_perm_cons_eraseIdx hlt b'), ← Multiset.cons_coe,
      ← Multiset.singleton_add, add_comm]
  have hright : (↑bs : Multiset (Branch O A β)) = ↑(bs.eraseIdx j) + {bs[j]} := by
    rw [← Multiset.coe_eq_coe.mpr (List.getElem_cons_eraseIdx_perm hlt), ← Multiset.cons_coe,
      ← Multiset.singleton_add, add_comm]
  rw [hleft, hright]
  exact cutExpand_add_single _ hb

theorem Config.next_wellFounded : WellFounded (Config.Next (O := O) (A := A) (β := β) (α := α)) := by
  -- a stream ends because its branches do, whatever it has yielded
  have hstream : ∀ (w : ℕ) (k : List (ℕ × β) → Par O A β α), (∀ ys, Acc Config.Next (.run (k ys))) →
      ∀ (bs : List (Branch O A β)) ys, Acc Config.Next (.streaming w bs ys k) := by
    intro w k hk bs
    have hacc : Acc (CutExpand Branch.Next) (↑bs : Multiset (Branch O A β)) :=
      Branch.next_wellFounded.cutExpand.apply _
    generalize hbs : (↑bs : Multiset (Branch O A β)) = m at hacc
    induction hacc generalizing bs with
    | intro m _ ih =>
      subst hbs
      intro ys
      refine ⟨_, fun c hc => ?_⟩
      cases hc with
      | branch hj hb => exact ih _ (cutExpand_set hj hb) _ rfl _
      | leave => exact hk ys
  have hrun : ∀ p : Par O A β α, Acc Config.Next (.run p) := by
    intro p
    induction p with
    | ret a => exact ⟨_, fun c hc => nomatch hc⟩
    | op o k ih =>
      refine ⟨_, fun c hc => ?_⟩
      cases hc with
      | ask o k a => exact ih a
    | unordered w bs k ih =>
      refine ⟨_, fun c hc => ?_⟩
      cases hc
      exact hstream w k ih _ _
  refine ⟨fun c => ?_⟩
  cases c with
  | run p => exact hrun p
  | streaming w bs ys k => exact hstream w k (fun ys => hrun (k ys)) bs ys

/-- No task takes steps forever, whatever happens between them. -/
theorem Task.no_infinite_run {perform : ι → (o : O) → σ → Option (A o × σ)} :
    ¬ ∃ ts : ℕ → Task σ O A β α,
      ∀ n, ∃ i m s s', (ts n).step perform i m s = some (ts (n + 1), s') := by
  rintro ⟨ts, hts⟩
  have hnext : ∀ n, Config.Next (ts (n + 1)).config (ts n).config := by
    intro n
    obtain ⟨i, m, s, s', hstep⟩ := hts n
    exact Task.step_next hstep
  exact (wellFounded_iff_isEmpty_descending_chain.mp Config.next_wellFounded).false
    ⟨fun n => (ts n).config, hnext⟩

theorem startNext_isSome {bs : List (Branch O A β)} {p : Prog O A β} (h : .queued p ∈ bs) :
    (startNext bs).isSome := by
  induction bs with
  | nil => cases h
  | cons b bs ih =>
    cases b with
    | queued q => rfl
    | active q =>
      have hmem : .queued p ∈ bs := by simpa using h
      simpa [startNext] using ih hmem
    | done =>
      have hmem : .queued p ∈ bs := by simpa using h
      simpa [startNext] using ih hmem

namespace Contract

/-- One turn of a task and its environment. -/
inductive Turn (C : Contract σ ι O A) : Task σ O A β α × σ → Task σ O A β α × σ → Prop
  | own {t t' : Task σ O A β α} {s s' : σ} {i : ι} {m : Move} (hi : C.Admissible i)
    (h : t.step C.perform i m s = some (t', s')) : Turn C (t, s) (t', s')
  | others {t : Task σ O A β α} {s s' : σ} (hrel : C.Rel s s') (hinv : C.Inv s') :
    Turn C (t, s) (t, s')

def Reaches (C : Contract σ ι O A) (x y : Task σ O A β α × σ) : Prop :=
  ReflTransGen (Turn C) x y

variable {C : Contract σ ι O A} {Q : Post σ O A α} {t t' : Task σ O A β α} {s s' : σ}

/-- Every operation is answered. -/
def Answers (C : Contract σ ι O A) : Prop := ∀ i o s, (C.perform i o s).isSome

/-- A safe task has returned or has a thread that can move. -/
theorem Fine.progress (hC : C.Answers) (h : C.Fine Q t s) :
    (∃ a, t.config = .run (.ret a)) ∨ ∃ m, ∀ i u, (t.step C.perform i m u).isSome := by
  obtain ⟨c, tr⟩ := t
  cases c with
  | run p =>
    cases p with
    | ret a => exact .inl ⟨a, rfl⟩
    | op o k => exact .inr ⟨.main, fun i u => by simpa [Task.step] using hC i o u⟩
    | unordered w bs k => exact .inr ⟨.main, fun i u => rfl⟩
  | streaming w bs ys k =>
    obtain ⟨hw, -⟩ : 0 < w ∧ ∃ P, C.FineStream Q bs ys k P tr s := h
    right
    by_cases hall : bs.all Branch.isDone
    · exact ⟨.finish, fun i u => by simp [Task.step, hall]⟩
    by_cases hactive : ∃ p, .active p ∈ bs
    · obtain ⟨p, hp⟩ := hactive
      obtain ⟨j, hj⟩ := List.mem_iff_getElem?.mp hp
      cases p with
      | ret r => exact ⟨.yield j, fun i u => by simp [Task.step, hj]⟩
      | op o f => exact ⟨.branch j, fun i u => by simpa [Task.step, hj] using hC i o u⟩
    -- no branch runs, so the window is open and a queued branch can start
    · have hcount : bs.countP Branch.isActive = 0 := by
        rw [List.countP_eq_zero]
        intro b hb hactive'
        cases b with
        | active p => exact hactive ⟨p, hb⟩
        | queued p => cases hactive'
        | done => cases hactive'
      have hqueued : ∃ p, .queued p ∈ bs := by
        by_contra hnone
        refine hall (List.all_eq_true.mpr fun b hb => ?_)
        cases b with
        | active p => exact absurd ⟨p, hb⟩ hactive
        | queued p => exact absurd ⟨p, hb⟩ hnone
        | done => rfl
      obtain ⟨p, hp⟩ := hqueued
      have hroom : bs.countP Branch.isActive < w := hcount ▸ hw
      exact ⟨.start, fun i u => by simpa [Task.step, hroom] using startNext_isSome hp⟩

/-- What every own step of a task keeps holds wherever it gets to. -/
theorem Reaches.keeps {I : Task σ O A β α → Prop} {x y : Task σ O A β α × σ}
    (hstep : ∀ i m t t' s s', I t → t.step C.perform i m s = some (t', s') → I t')
    (hr : C.Reaches x y) (hx : I x.1) : I y.1 := by
  induction hr with
  | refl => exact hx
  | tail _ hturn ih =>
    cases hturn with
    | own _ h => exact hstep _ _ _ _ _ _ ih h
    | others _ _ => exact ih

theorem Fine.reaches {x y : Task σ O A β α × σ} (hs : C.Inv x.2) (h : C.Fine Q x.1 x.2)
    (hr : C.Reaches x y) : C.Inv y.2 ∧ C.Fine Q y.1 y.2 := by
  induction hr with
  | refl => exact ⟨hs, h⟩
  | tail _ hturn ih =>
    obtain ⟨hinv, hfine⟩ := ih
    cases hturn with
    | own hi hstep =>
      obtain ⟨hinv', -, hfine'⟩ := hfine.step hi hinv hstep
      exact ⟨hinv', hfine'⟩
    | others hrel hinv' => exact ⟨hinv', hfine.later hrel hinv'⟩

/-- Started in `s`, the program returns, and only what satisfies `Q`: wherever a run has
got to, it has returned such a value or can go on, and it cannot go on forever. -/
structure Returns (C : Contract σ ι O A) (p : Par O A β α) (s : σ) (Q : α → Prop) : Prop where
  goesOn : ∀ t s', C.Reaches (⟨.run p, []⟩, s) (t, s') →
    (∃ a, t.config = .run (.ret a) ∧ Q a) ∨ ∃ m, ∀ i, (t.step C.perform i m s').isSome
  ends : ¬ ∃ ts : ℕ → Task σ O A β α, ts 0 = ⟨.run p, []⟩ ∧
    ∀ n, ∃ i m u u', (ts n).step C.perform i m u = some (ts (n + 1), u')

theorem SafePar.returns {p : Par O A β α} {Q : α → Prop} (hC : C.Answers) (hs : C.Inv s)
    (h : C.SafePar (fun a _ _ => Q a) p [] s) : C.Returns p s Q where
  goesOn t u hr := by
    obtain ⟨hu, hfine⟩ : C.Inv u ∧ C.Fine (fun a _ _ => Q a) t u :=
      Fine.reaches (x := (⟨.run p, []⟩, s)) hs h hr
    rcases hfine.progress hC with ⟨a, ha⟩ | ⟨m, hm⟩
    · exact .inl ⟨a, ha, hfine.done hu ha⟩
    · exact .inr ⟨m, fun i => hm i u⟩
  ends := fun ⟨ts, _, hts⟩ => Task.no_infinite_run ⟨ts, hts⟩

section Always
variable {C : Contract σ ι O A} {R : α → Prop} {S : γ → Prop}

/-- Whatever its environment does, the program returns only what satisfies `R`. -/
def Always (C : Contract σ ι O A) (R : α → Prop) (p : Prog O A α) : Prop :=
  ∀ tr s, C.Safe (fun a _ _ => R a) p tr s

def AlwaysPar (C : Contract σ ι O A) (R : α → Prop) (p : Par O A β α) : Prop :=
  ∀ tr s, C.Inv s → C.SafePar (fun a _ _ => R a) p tr s

theorem Always.ret {a : α} (h : R a) : C.Always R (.ret a) :=
  fun _ _ _ _ _ => h

/-- An operation that may always be asked, and what follows whatever it answers. -/
theorem Always.ask {o : O} {k : A o → Prog O A α} (hpre : ∀ s, C.Pre o s)
    (hk : ∀ a, C.Always R (k a)) : C.Always R (.op o k) :=
  fun _ _ _ u _ => ⟨hpre u, fun _ a _ _ _ => hk a _ _⟩

theorem Always.anything (hpre : ∀ o s, C.Pre o s) (p : Prog O A α) :
    C.Always (fun _ => True) p := by
  induction p with
  | ret a => exact Always.ret trivial
  | op o k ih => exact Always.ask (hpre o) ih

/-- When the answers a program gets are given, it returns what it computes from them. -/
theorem Always.of_eval {answer : (o : O) → Option (A o)} (hpre : ∀ o s, C.Pre o s)
    (hanswer : ∀ {i o s a s'} {b : A o}, C.Admissible i → C.Inv s → answer o = some b →
      C.perform i o s = some (a, s') → a = b)
    {p : Prog O A α} {x : α} (h : p.evalWith answer = some x) : C.Always (· = x) p := by
  induction p with
  | ret a => exact Always.ret (Option.some.inj h)
  | op o k ih =>
    obtain ⟨b, hb, hk⟩ := Option.bind_eq_some_iff.mp h
    intro tr s tr' s' hl
    refine ⟨hpre o s', fun i a s'' hi hp => ?_⟩
    obtain rfl := hanswer hi hl.inv hb hp
    exact ih _ hk _ _

theorem Always.mono {R' : α → Prop} {p : Prog O A α} (h : C.Always R p) (hR : ∀ a, R a → R' a) :
    C.Always R' p :=
  fun tr s => (h tr s).mono fun a _ _ _ ha => hR a ha

theorem Always.bind {p : Prog O A γ} {f : γ → Prog O A α} (h : C.Always S p)
    (hf : ∀ c, S c → C.Always R (f c)) : C.Always R (p.bind f) :=
  fun tr s => Safe.bind ((h tr s).mono fun c t u _ hc => hf c hc t u)

theorem AlwaysPar.bind {p : Par O A β γ} {f : γ → Par O A β α} (h : C.AlwaysPar S p)
    (hf : ∀ c, S c → C.AlwaysPar R (f c)) : C.AlwaysPar R (p.bind f) :=
  fun tr s hs => SafePar.bind hs ((h tr s hs).mono hs fun c t u hl hc => hf c hc t u hl.inv)

theorem AlwaysPar.ret {a : α} (h : R a) : C.AlwaysPar R (.ret a : Par O A β α) :=
  fun _ _ _ _ _ _ => h

theorem AlwaysPar.lift {p : Prog O A α} (h : C.Always R p) :
    C.AlwaysPar R (p.toPar : Par O A β α) :=
  fun tr s _ => SafePar.lift (h tr s)

/-- Results of a stream come back beside the index of their branch, each index once. -/
theorem AlwaysPar.unordered {w : ℕ} {bs : List (Prog O A β)} {k : List (ℕ × β) → Par O A β α}
    {T : ℕ → β → Prop} (hw : 0 < w) (hbs : ∀ (j : ℕ) b, bs[j]? = some b → C.Always (T j) b)
    (hk : ∀ ys, (ys.map Prod.fst).Perm (List.range bs.length) → (∀ j r, (j, r) ∈ ys → T j r) →
      C.AlwaysPar R (k ys)) : C.AlwaysPar R (.unordered w bs k) :=
  fun tr s _ => ⟨hw, fun j r _ _ => T j r, fun j b hj => hbs j b hj tr s,
    fun ys t u hl hperm hys => hk ys hperm hys t u hl.inv⟩

/-- `>>=` of fallible programs. -/
theorem Always.andThen {x : ExceptT ε (Prog O A) γ} {f : γ → ExceptT ε (Prog O A) α}
    {S : Except ε γ → Prop} {R : Except ε α → Prop} (h : C.Always S x.run)
    (hf : ∀ c, S (.ok c) → C.Always R (f c).run) (he : ∀ e, S (.error e) → R (.error e)) :
    C.Always R (x >>= f).run := by
  refine Always.bind h fun r hr => ?_
  cases r with
  | ok c => exact hf c hr
  | error e => exact Always.ret (he e hr)

theorem AlwaysPar.andThen {x : ExceptT ε (Par O A β) γ} {f : γ → ExceptT ε (Par O A β) α}
    {S : Except ε γ → Prop} {R : Except ε α → Prop} (h : C.AlwaysPar S x.run)
    (hf : ∀ c, S (.ok c) → C.AlwaysPar R (f c).run) (he : ∀ e, S (.error e) → R (.error e)) :
    C.AlwaysPar R (x >>= f).run := by
  refine AlwaysPar.bind h fun r hr => ?_
  cases r with
  | ok c => exact hf c hr
  | error e => exact AlwaysPar.ret (he e hr)

theorem AlwaysPar.tryCatch {x : ExceptT ε (Par O A β) α} {f : ε → ExceptT ε (Par O A β) α}
    {S R : Except ε α → Prop} (h : C.AlwaysPar S x.run) (hok : ∀ a, S (.ok a) → R (.ok a))
    (hf : ∀ e, S (.error e) → C.AlwaysPar R (f e).run) :
    C.AlwaysPar R (tryCatchThe ε x f).run := by
  refine AlwaysPar.bind h fun r hr => ?_
  cases r with
  | ok a => exact AlwaysPar.ret (hok a hr)
  | error e => exact hf e hr

end Always

end Contract

end OracleServer.Interaction
