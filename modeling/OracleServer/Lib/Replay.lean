import OracleServer.Lib.Contract
import OracleServer.Lib.Protocol

/-! What a trace says of the program that left it. `Prog.Steps` replays a sequential
program on recorded answers; a task that returned is a replay of its program in which the
entries of a stream are shared out among the branches, each a replay of that branch. A
replay on a chain of states meets every postcondition its program was proved to have. -/
namespace OracleServer.Interaction

variable {σ ι O : Type} {A : O → Type} {α β γ ε : Type}

/-- Answered so, the program is left with `q`. -/
inductive Prog.Steps : Prog O A α → Trace σ O A → Prog O A α → Prop
  | done (p : Prog O A α) : Steps p [] p
  | ask {o : O} {k : A o → Prog O A α} (s : σ) (a : A o) {tr : Trace σ O A} {q : Prog O A α}
    (h : Steps (k a) tr q) : Steps (.op o k) (⟨s, o, a⟩ :: tr) q

/-- Answered so, the program returns `r`. -/
abbrev Prog.Ran (p : Prog O A α) (tr : Trace σ O A) (r : α) : Prop := p.Steps tr (.ret r)

section Sequences
variable {tr tr' : Trace σ O A}

theorem Prog.Steps.ret_inv {a : α} {q : Prog O A α} (h : (Prog.ret a).Steps tr q) :
    tr = [] ∧ q = .ret a := by
  cases h
  exact ⟨rfl, rfl⟩

theorem Prog.Ran.ret_inv {a r : α} (h : (Prog.ret a : Prog O A α).Ran tr r) : tr = [] ∧ a = r := by
  obtain ⟨rfl, hq⟩ := Prog.Steps.ret_inv h
  exact ⟨rfl, (Prog.ret.inj hq).symm⟩

theorem Prog.Ran.op_inv {o : O} {k : A o → Prog O A α} {r : α} (h : (Prog.op o k).Ran tr r) :
    ∃ s a rest, tr = ⟨s, o, a⟩ :: rest ∧ (k a).Ran rest r := by
  cases h with
  | ask s a h => exact ⟨s, a, _, rfl, h⟩

theorem Prog.Steps.bind {p : Prog O A γ} {f : γ → Prog O A α} {c : γ} {q : Prog O A α}
    (h : p.Ran tr c) (hf : (f c).Steps tr' q) : (p.bind f).Steps (tr ++ tr') q := by
  induction p generalizing tr with
  | ret d =>
    obtain ⟨rfl, rfl⟩ := Prog.Ran.ret_inv h
    exact hf
  | op o k ih =>
    obtain ⟨s, a, rest, rfl, hrest⟩ := Prog.Ran.op_inv h
    exact .ask s a (ih a hrest)

/-- A composition is at an operation of its first part, or goes on with the second. -/
theorem Prog.Steps.bind_inv {p : Prog O A γ} {f : γ → Prog O A α} {q : Prog O A α}
    (h : (p.bind f).Steps tr q) :
    (∃ o k, p.Steps tr (.op o k) ∧ q = (Prog.op o k).bind f) ∨
      ∃ c t₁ t₂, tr = t₁ ++ t₂ ∧ p.Ran t₁ c ∧ (f c).Steps t₂ q := by
  induction p generalizing tr with
  | ret c => exact .inr ⟨c, [], tr, rfl, .done _, h⟩
  | op o k ih =>
    cases h with
    | done => exact .inl ⟨o, k, .done _, rfl⟩
    | ask s a h =>
      rcases ih a h with ⟨o', k', hp, rfl⟩ | ⟨c, t₁, t₂, rfl, hp, hf⟩
      · exact .inl ⟨o', k', .ask s a hp, rfl⟩
      · exact .inr ⟨c, ⟨s, o, a⟩ :: t₁, t₂, rfl, .ask s a hp, hf⟩

theorem Prog.Ran.bind_inv {p : Prog O A γ} {f : γ → Prog O A α} {r : α}
    (h : (p.bind f).Ran tr r) :
    ∃ c t₁ t₂, tr = t₁ ++ t₂ ∧ p.Ran t₁ c ∧ (f c).Ran t₂ r := by
  rcases Prog.Steps.bind_inv h with ⟨o, k, -, hq⟩ | h
  · cases hq
  · exact h

/-- What a program returns when its operations are answered so, it returns on those answers. -/
theorem Prog.ran_of_evalWith {answer : (o : O) → Option (A o)} (s : σ) {p : Prog O A α} {r : α}
    (h : p.evalWith answer = some r) :
    ∃ tr : Trace σ O A, p.Ran tr r ∧ ∀ e ∈ tr, answer e.op = some e.answer := by
  induction p with
  | ret a =>
    obtain rfl := Option.some.inj h
    exact ⟨[], .done _, fun e he => nomatch he⟩
  | op o k ih =>
    obtain ⟨a, ha, h⟩ := Option.bind_eq_some_iff.mp h
    obtain ⟨tr, hran, hall⟩ := ih a h
    refine ⟨⟨s, o, a⟩ :: tr, .ask s a hran, fun e he => ?_⟩
    rcases List.mem_cons.mp he with rfl | he
    · exact ha
    · exact hall e he

theorem bindEx_assoc {δ : Type} (x : ExceptT ε (Prog O A) γ) (f : γ → ExceptT ε (Prog O A) α)
    (g : α → ExceptT ε (Prog O A) δ) : x >>= f >>= g = x >>= fun c => f c >>= g := by
  refine (Prog.bind_assoc _ _ _).trans (congrArg (Prog.bind x.run) (funext fun r => ?_))
  cases r <;> rfl

/-- A fallible composition: both parts return, or the first fails. -/
theorem Prog.Ran.bindEx_inv {x : ExceptT ε (Prog O A) γ} {f : γ → ExceptT ε (Prog O A) α}
    {r : Except ε α} (h : (x >>= f).run.Ran tr r) :
    (∃ c t₁ t₂, tr = t₁ ++ t₂ ∧ x.run.Ran t₁ (.ok c) ∧ (f c).run.Ran t₂ r) ∨
      ∃ e, x.run.Ran tr (.error e) ∧ r = .error e := by
  obtain ⟨c, t₁, t₂, rfl, hx, hf⟩ := Prog.Ran.bind_inv h
  cases c with
  | ok c => exact .inl ⟨c, t₁, t₂, rfl, hx, hf⟩
  | error e =>
    obtain ⟨rfl, rfl⟩ := Prog.Ran.ret_inv hf
    exact .inr ⟨e, by rwa [List.append_nil], rfl⟩

theorem Prog.Ran.bindOk_inv {x : ExceptT ε (Prog O A) γ} {f : γ → ExceptT ε (Prog O A) α} {a : α}
    (h : (x >>= f).run.Ran tr (.ok a)) :
    ∃ c t₁ t₂, tr = t₁ ++ t₂ ∧ x.run.Ran t₁ (.ok c) ∧ (f c).run.Ran t₂ (.ok a) := by
  rcases Prog.Ran.bindEx_inv h with h | ⟨e, -, he⟩
  · exact h
  · cases he

theorem Prog.Ran.askEx_inv {o : O} {f : A o → ExceptT ε (Prog O A) α} {r : Except ε α}
    (h : (ExceptT.lift (Prog.ask o) >>= f).run.Ran tr r) :
    ∃ s a rest, tr = ⟨s, o, a⟩ :: rest ∧ (f a).run.Ran rest r :=
  Prog.Ran.op_inv h

theorem Prog.Ran.bindOk {x : ExceptT ε (Prog O A) γ} {f : γ → ExceptT ε (Prog O A) α} {c : γ}
    {r : Except ε α} (h : x.run.Ran tr (.ok c)) (hf : (f c).run.Ran tr' r) :
    (x >>= f).run.Ran (tr ++ tr') r :=
  Prog.Steps.bind h hf

theorem Prog.Ran.bindError {x : ExceptT ε (Prog O A) γ} {f : γ → ExceptT ε (Prog O A) α} {e : ε}
    (h : x.run.Ran tr (.error e)) : (x >>= f).run.Ran tr (.error e) := by
  have hrun : (x >>= f).run.Ran (tr ++ []) (.error e) := Prog.Steps.bind h (.done _)
  rwa [List.append_nil] at hrun

/-- What a program asked is what it may ask. -/
theorem Prog.Uses.steps {P : O → Prop} {p q : Prog O A α} (hp : p.Uses P) (h : p.Steps tr q) :
    ∀ e ∈ tr, P e.op := by
  induction h with
  | done p => exact fun e he => nomatch he
  | ask s a _ ih =>
    intro e he
    rcases List.mem_cons.mp he with rfl | he
    · exact hp.1
    · exact ih (hp.2 a) e he

/-- A fallible composition has not left its first part, or failed in it, or goes on with
the second. -/
theorem Prog.Steps.bindOk_inv {x : ExceptT ε (Prog O A) γ} {f : γ → ExceptT ε (Prog O A) α}
    {q : Prog O A (Except ε α)} (h : (x >>= f).run.Steps tr q) :
    ((∃ p, x.run.Steps tr p) ∧ ∀ a, q ≠ .ret (.ok a)) ∨
      ∃ c t₁ t₂, tr = t₁ ++ t₂ ∧ x.run.Ran t₁ (.ok c) ∧ (f c).run.Steps t₂ q := by
  rcases Prog.Steps.bind_inv h with ⟨o, k, hp, rfl⟩ | ⟨c, t₁, t₂, rfl, hp, hf⟩
  · exact .inl ⟨⟨_, hp⟩, fun a ha => nomatch ha⟩
  · cases c with
    | ok c => exact .inr ⟨c, t₁, t₂, rfl, hp, hf⟩
    | error e =>
      obtain ⟨rfl, rfl⟩ := Prog.Steps.ret_inv hf
      rw [List.append_nil]
      exact .inl ⟨⟨_, hp⟩, fun a ha => nomatch ha⟩

end Sequences

/-- The entries of thread `j`. -/
def own (j : ℕ) (woven : List (ℕ × Entry σ O A)) : Trace σ O A :=
  (woven.filter fun e => e.1 = j).map Prod.snd

/-- The entries of a stream, each with the branch that asked it: every branch is replayed
by its own, and its result is among those that came back. -/
structure Weaves (bs : List (Prog O A β)) (woven : List (ℕ × Entry σ O A)) (ys : List (ℕ × β)) :
    Prop where
  perm : (ys.map Prod.fst).Perm (List.range bs.length)
  branch : ∀ j b, bs[j]? = some b → ∃ r, (j, r) ∈ ys ∧ b.Ran (own j woven) r

/-- Answered so, the program returns `r`. -/
def Par.Ran : Par O A β α → Trace σ O A → α → Prop
  | .ret a, tr, r => tr = [] ∧ a = r
  | .op o k, tr, r => ∃ s a rest, tr = ⟨s, o, a⟩ :: rest ∧ (k a).Ran rest r
  | .unordered _ bs k, tr, r => ∃ woven ys rest, tr = woven.map Prod.snd ++ rest ∧
      Weaves bs woven ys ∧ (k ys).Ran rest r

/-- What is left of a stream returns `r`: the branches that are left are replayed, and
what they yield joins `ys`. -/
def Config.Ran : Config O A β α → Trace σ O A → α → Prop
  | .run p, tr, r => p.Ran tr r
  | .streaming _ bs ys k, tr, r => ∃ woven zs rest, tr = woven.map Prod.snd ++ rest ∧
      ((ys ++ zs).map Prod.fst).Perm (List.range bs.length) ∧
      (∀ j b p, bs[j]? = some b → b.prog? = some p → ∃ x, (j, x) ∈ zs ∧ p.Ran (own j woven) x) ∧
      (∀ j, bs[j]? = some .done → own j woven = []) ∧ (k (ys ++ zs)).Ran rest r

section Parallel
variable {tr tr' : Trace σ O A}

theorem own_cons_self (j : ℕ) (e : Entry σ O A) (woven : List (ℕ × Entry σ O A)) :
    own j ((j, e) :: woven) = e :: own j woven := by
  simp [own]

theorem own_cons_ne {i j : ℕ} (h : j ≠ i) (e : Entry σ O A) (woven : List (ℕ × Entry σ O A)) :
    own i ((j, e) :: woven) = own i woven := by
  simp [own, h]

/-- The entries of one thread after the other, the second counted from one. -/
def stack (tr : Trace σ O A) (woven : List (ℕ × Entry σ O A)) : List (ℕ × Entry σ O A) :=
  tr.map (Prod.mk 0) ++ woven.map fun e => (e.1 + 1, e.2)

theorem stack_snd (tr : Trace σ O A) (woven : List (ℕ × Entry σ O A)) :
    (stack tr woven).map Prod.snd = tr ++ woven.map Prod.snd := by
  simp [stack, Function.comp_def]

theorem own_stack_zero (tr : Trace σ O A) (woven : List (ℕ × Entry σ O A)) :
    own 0 (stack tr woven) = tr := by
  simp [own, stack, List.filter_map, Function.comp_def]

theorem own_stack_succ (j : ℕ) (tr : Trace σ O A) (woven : List (ℕ × Entry σ O A)) :
    own (j + 1) (stack tr woven) = own j woven := by
  simp [own, stack, List.filter_map, Function.comp_def]

theorem Par.Ran.bind_inv {p : Par O A β γ} {f : γ → Par O A β α} {r : α}
    (h : (p.bind f).Ran tr r) :
    ∃ c t₁ t₂, tr = t₁ ++ t₂ ∧ p.Ran t₁ c ∧ (f c).Ran t₂ r := by
  induction p generalizing tr with
  | ret c => exact ⟨c, [], tr, rfl, ⟨rfl, rfl⟩, h⟩
  | op o k ih =>
    obtain ⟨s, a, rest, rfl, h⟩ := h
    obtain ⟨c, t₁, t₂, rfl, hp, hf⟩ := ih a h
    exact ⟨c, ⟨s, o, a⟩ :: t₁, t₂, rfl, ⟨s, a, t₁, rfl, hp⟩, hf⟩
  | unordered w bs k ih =>
    obtain ⟨woven, ys, rest, rfl, hweaves, h⟩ := h
    obtain ⟨c, t₁, t₂, rfl, hp, hf⟩ := ih ys h
    exact ⟨c, woven.map Prod.snd ++ t₁, t₂, by rw [List.append_assoc],
      ⟨woven, ys, t₁, rfl, hweaves, hp⟩, hf⟩

theorem Par.Ran.bindEx_inv {x : ExceptT ε (Par O A β) γ} {f : γ → ExceptT ε (Par O A β) α}
    {r : Except ε α} (h : (x >>= f).run.Ran tr r) :
    (∃ c t₁ t₂, tr = t₁ ++ t₂ ∧ x.run.Ran t₁ (.ok c) ∧ (f c).run.Ran t₂ r) ∨
      ∃ e, x.run.Ran tr (.error e) ∧ r = .error e := by
  obtain ⟨c, t₁, t₂, rfl, hx, hf⟩ := Par.Ran.bind_inv h
  cases c with
  | ok c => exact .inl ⟨c, t₁, t₂, rfl, hx, hf⟩
  | error e =>
    obtain ⟨rfl, rfl⟩ : t₂ = [] ∧ Except.error e = r := hf
    exact .inr ⟨e, by rwa [List.append_nil], rfl⟩

theorem Par.Ran.toPar_inv {p : Prog O A α} {r : α} (h : (p.toPar : Par O A β α).Ran tr r) :
    p.Ran tr r := by
  induction p generalizing tr with
  | ret a =>
    obtain ⟨rfl, rfl⟩ := h
    exact .done _
  | op o k ih =>
    obtain ⟨s, a, rest, rfl, h⟩ := h
    exact .ask s a (ih a h)

/-- One step of a task is the first of what was left to replay. -/
theorem Config.Ran.step {perform : ι → (o : O) → σ → Option (A o × σ)} {i : ι} {m : Move}
    {t t' : Task σ O A β α} {s s' : σ} {r : α}
    (hyields : ∀ w bs ys k, t.config = .streaming w bs ys k → Yields bs ys)
    (h : t.step perform i m s = some (t', s')) :
    ∃ new, t'.trace = t.trace ++ new ∧
      ∀ rest, t'.config.Ran rest r → t.config.Ran (new ++ rest) r := by
  obtain ⟨c, tr⟩ := t
  unfold Task.step at h
  split at h
  · next o k hc =>
    obtain ⟨⟨a, u⟩, -, heq⟩ := Option.map_eq_some_iff.mp h
    obtain ⟨rfl, -⟩ := Prod.mk.inj heq
    obtain rfl : c = .run (.op o k) := hc
    exact ⟨[⟨s, o, a⟩], rfl, fun rest hrest => ⟨s, a, rest, rfl, hrest⟩⟩
  · next w bs k hc =>
    obtain ⟨rfl, -⟩ := Prod.mk.inj (Option.some.inj h)
    obtain rfl : c = .run (.unordered w bs k) := hc
    refine ⟨[], (List.append_nil tr).symm, fun rest hrest => ?_⟩
    obtain ⟨woven, zs, rest', rfl, hperm, hleft, -, hk⟩ := hrest
    refine ⟨woven, zs, rest', rfl, ⟨by simpa using hperm, fun j b hj => ?_⟩, hk⟩
    exact hleft j (.queued b) b (by rw [List.getElem?_map, hj]; rfl) rfl
  · next w bs ys k hc =>
    obtain rfl : c = .streaming w bs ys k := hc
    split at h
    case isFalse => cases h
    case isTrue =>
      obtain ⟨bs', hst, heq⟩ := Option.map_eq_some_iff.mp h
      obtain ⟨rfl, -⟩ := Prod.mk.inj heq
      obtain ⟨j, p, hj, rfl⟩ := startNext_some hst
      refine ⟨[], (List.append_nil tr).symm, fun rest hrest => ?_⟩
      obtain ⟨woven, zs, rest', rfl, hperm, hleft, hdone, hk⟩ := hrest
      have hlt := (List.getElem?_eq_some_iff.mp hj).1
      refine ⟨woven, zs, rest', rfl, by simpa using hperm, fun n b q hn hq => ?_, fun n hn => ?_, hk⟩
      · by_cases hjn : j = n
        · subst hjn
          obtain rfl := Option.some.inj (hj.symm.trans hn)
          exact hleft j (.active p) q (List.getElem?_set_self hlt) hq
        · exact hleft n b q (by rw [List.getElem?_set_ne hjn, hn]) hq
      · have hjn : j ≠ n := by
          rintro rfl
          cases hj.symm.trans hn
        exact hdone n (by rw [List.getElem?_set_ne hjn, hn])
  · next j w bs ys k hc =>
    obtain rfl : c = .streaming w bs ys k := hc
    split at h
    case h_2 => cases h
    case h_1 o f hj =>
      obtain ⟨⟨a, u⟩, -, heq⟩ := Option.map_eq_some_iff.mp h
      obtain ⟨rfl, -⟩ := Prod.mk.inj heq
      refine ⟨[⟨s, o, a⟩], rfl, fun rest hrest => ?_⟩
      obtain ⟨woven, zs, rest', rfl, hperm, hleft, hdone, hk⟩ := hrest
      have hlt := (List.getElem?_eq_some_iff.mp hj).1
      refine ⟨(j, ⟨s, o, a⟩) :: woven, zs, rest', rfl, by simpa using hperm, fun n b q hn hq => ?_,
        fun n hn => ?_, hk⟩
      · by_cases hjn : j = n
        · subst hjn
          obtain rfl := Option.some.inj (hj.symm.trans hn)
          obtain rfl := Option.some.inj hq
          obtain ⟨x, hx, hran⟩ := hleft j (.active (f a)) (f a) (List.getElem?_set_self hlt) rfl
          rw [own_cons_self]
          exact ⟨x, hx, .ask s a hran⟩
        · rw [own_cons_ne hjn]
          exact hleft n b q (by rw [List.getElem?_set_ne hjn, hn]) hq
      · have hjn : j ≠ n := by
          rintro rfl
          cases hj.symm.trans hn
        rw [own_cons_ne hjn]
        exact hdone n (by rw [List.getElem?_set_ne hjn, hn])
  · next j w bs ys k hc =>
    obtain rfl : c = .streaming w bs ys k := hc
    split at h
    case h_2 => cases h
    case h_1 x hj =>
      obtain ⟨rfl, -⟩ := Prod.mk.inj (Option.some.inj h)
      refine ⟨[], (List.append_nil tr).symm, fun rest hrest => ?_⟩
      obtain ⟨woven, zs, rest', rfl, hperm, hleft, hdone, hk⟩ := hrest
      have hlt := (List.getElem?_eq_some_iff.mp hj).1
      have hsplit : ys ++ [(j, x)] ++ zs = ys ++ (j, x) :: zs := by simp
      rw [hsplit] at hperm hk
      refine ⟨woven, (j, x) :: zs, rest', rfl, by simpa using hperm, fun n b q hn hq => ?_,
        fun n hn => ?_, hk⟩
      · by_cases hjn : j = n
        · subst hjn
          obtain rfl := Option.some.inj (hj.symm.trans hn)
          obtain rfl := Option.some.inj hq
          rw [hdone j (List.getElem?_set_self hlt)]
          exact ⟨x, List.mem_cons_self, .done _⟩
        · obtain ⟨y, hy, hran⟩ := hleft n b q (by rw [List.getElem?_set_ne hjn, hn]) hq
          exact ⟨y, List.mem_cons_of_mem _ hy, hran⟩
      · have hjn : j ≠ n := by
          rintro rfl
          cases hj.symm.trans hn
        exact hdone n (by rw [List.getElem?_set_ne hjn, hn])
  · next w bs ys k hc =>
    obtain rfl : c = .streaming w bs ys k := hc
    split at h
    case isFalse => cases h
    case isTrue hall =>
      obtain ⟨rfl, -⟩ := Prod.mk.inj (Option.some.inj h)
      refine ⟨[], (List.append_nil tr).symm, fun rest hrest => ?_⟩
      refine ⟨[], [], rest, rfl, ?_, fun n b q hn hq => ?_, fun _ _ => rfl, by rwa [List.append_nil]⟩
      · rw [List.append_nil]
        exact (hyields w bs ys k rfl).perm hall
      · have hd := List.all_eq_true.mp hall b (List.mem_of_getElem? hn)
        cases b with
        | done => cases hq
        | _ => cases hd
  · cases h

end Parallel

namespace Contract

/-- From `s` to `s'` the entries were answered in turn, and the environment kept to the
contract in between. -/
def Chain (C : Contract σ ι O A) : σ → Trace σ O A → σ → Prop
  | s, [], s' => C.Rel s s'
  | s, e :: tr, s' => C.Rel s e.state ∧ C.Inv e.state ∧ ∃ i u, C.Admissible i ∧
      C.perform i e.op e.state = some (e.answer, u) ∧ C.Rel e.state u ∧ C.Inv u ∧ Chain C u tr s'

section Chains
variable {C : Contract σ ι O A} {tr tr' : Trace σ O A} {s s' s'' : σ}

theorem Chain.before (hrel : C.Rel s s') (h : C.Chain s' tr s'') : C.Chain s tr s'' := by
  cases tr with
  | nil => exact C.trans hrel h
  | cons e tr => exact ⟨C.trans hrel h.1, h.2⟩

theorem Chain.later (h : C.Chain s tr s') (hrel : C.Rel s' s'') : C.Chain s tr s'' := by
  induction tr generalizing s with
  | nil => exact C.trans h hrel
  | cons e tr ih =>
    obtain ⟨hs, hinv, i, u, hi, hp, hu, hinv', h⟩ := h
    exact ⟨hs, hinv, i, u, hi, hp, hu, hinv', ih h⟩

theorem Chain.snoc {i : ι} {o : O} {a : A o} (h : C.Chain s tr s') (hi : C.Admissible i)
    (hinv : C.Inv s') (hp : C.perform i o s' = some (a, s'')) (hrel : C.Rel s' s'')
    (hinv' : C.Inv s'') : C.Chain s (tr ++ [⟨s', o, a⟩]) s'' := by
  induction tr generalizing s with
  | nil => exact ⟨h, hinv, i, s'', hi, hp, hrel, hinv', C.refl s''⟩
  | cons e tr ih =>
    obtain ⟨hs, hinv, i', u, hi', hp', hu, hinv', h⟩ := h
    exact ⟨hs, hinv, i', u, hi', hp', hu, hinv', ih h⟩

/-- What some of the entries were answered is a chain as well. -/
theorem Chain.sublist (hsub : tr'.Sublist tr) (h : C.Chain s tr s') : C.Chain s tr' s' := by
  induction hsub generalizing s with
  | slnil => exact h
  | cons e _ ih =>
    obtain ⟨hs, -, i, u, -, -, hu, -, h⟩ := h
    exact (ih h).before (C.trans hs hu)
  | cons_cons e _ ih =>
    obtain ⟨hs, hinv, i, u, hi, hp, hu, hinv', h⟩ := h
    exact ⟨hs, hinv, i, u, hi, hp, hu, hinv', ih h⟩

/-- A chain under one contract is one under any that assumes less. -/
theorem Chain.weaken {C' : Contract σ ι O A} (hperform : C'.perform = C.perform)
    (hi : ∀ i, C.Admissible i → C'.Admissible i) (hinv : ∀ s, C.Inv s → C'.Inv s)
    (hrel : ∀ s s', C.Rel s s' → C'.Rel s s') (h : C.Chain s tr s') : C'.Chain s tr s' := by
  induction tr generalizing s with
  | nil => exact hrel _ _ h
  | cons e tr ih =>
    obtain ⟨hs, hinv₁, i, u, hi', hp, hu, hinv₂, h⟩ := h
    exact ⟨hrel _ _ hs, hinv _ hinv₁, i, u, hi i hi', hperform ▸ hp, hrel _ _ hu, hinv _ hinv₂, ih h⟩

/-- A program proved safe meets its postcondition on the replay of any chain. -/
theorem Safe.ran {Q : Post σ O A α} {p : Prog O A α} {r : α} (h : C.Safe Q p tr s)
    (hran : p.Ran tr' r) (hchain : C.Chain s tr' s') (hs' : C.Inv s') : Q r (tr ++ tr') s' := by
  induction p generalizing tr tr' s with
  | ret a =>
    obtain ⟨rfl, rfl⟩ := Prog.Ran.ret_inv hran
    rw [List.append_nil]
    exact h tr s' ⟨List.prefix_rfl, hchain, hs'⟩
  | op o k ih =>
    obtain ⟨s₀, a, rest, rfl, hrest⟩ := Prog.Ran.op_inv hran
    obtain ⟨hrel, hinv, i, u, hi, hp, -, -, hchain⟩ := hchain
    obtain ⟨-, hk⟩ := h tr s₀ ⟨List.prefix_rfl, hrel, hinv⟩
    have hpost := ih a (hk i a u hi hp) hrest hchain
    rwa [List.append_assoc] at hpost

end Chains

/-- The task started as `p`: its trace is a chain, and whatever completes what is left of
it completes a replay of `p`. -/
structure History (C : Contract σ ι O A) (p : Par O A β α) (t : Task σ O A β α) (s : σ) : Prop where
  chain : ∃ s₀, C.Chain s₀ t.trace s
  replays : ∀ rest r, t.config.Ran rest r → p.Ran (t.trace ++ rest) r

section Histories
variable {C : Contract σ ι O A} {Q : Post σ O A α} {p : Par O A β α} {t t' : Task σ O A β α}
  {s s' : σ} {i : ι} {m : Move}

theorem History.start : C.History p ⟨.run p, []⟩ s where
  chain := ⟨s, C.refl s⟩
  replays _ _ h := h

theorem History.later (h : C.History p t s) (hrel : C.Rel s s') : C.History p t s' where
  chain := h.chain.imp fun _ hchain => hchain.later hrel
  replays := h.replays

theorem History.step (hi : C.Admissible i) (hs : C.Inv s) (hfine : C.Fine Q t s)
    (h : C.History p t s) (hstep : t.step C.perform i m s = some (t', s')) :
    C.History p t' s' where
  chain := by
    obtain ⟨hs', hrel, -⟩ := hfine.step hi hs hstep
    obtain ⟨s₀, hchain⟩ := h.chain
    rcases Task.step_trace hstep with ⟨htrace, rfl⟩ | ⟨o, a, hp, htrace⟩
    · exact ⟨s₀, htrace ▸ hchain⟩
    · exact ⟨s₀, htrace ▸ hchain.snoc hi hs hp hrel hs'⟩
  replays rest r hrest := by
    have hyields : ∀ w bs ys k, t.config = .streaming w bs ys k → Yields bs ys := by
      intro w bs ys k hc
      unfold Fine at hfine
      rw [hc] at hfine
      obtain ⟨-, P, hP⟩ := hfine
      exact hP.yields
    obtain ⟨new, htrace, hnew⟩ := Config.Ran.step hyields hstep
    rw [htrace, List.append_assoc]
    exact h.replays _ r (hnew rest hrest)

/-- A task that returned was a replay of the program it started as. -/
theorem History.done {a : α} (h : C.History p t s) (ht : t.config = .run (.ret a)) :
    p.Ran t.trace a := by
  have hran := h.replays [] a (by rw [ht]; exact ⟨rfl, rfl⟩)
  rwa [List.append_nil] at hran

end Histories

end Contract

end OracleServer.Interaction
