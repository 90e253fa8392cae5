import OracleServer.Lib.Contract

/-! Postconditions of programs that may fail, on both outcomes: what a program returns
meets one, what it throws meets the other. The rules are those of `Contract`, with the
error carried past whatever follows it. -/
namespace OracleServer.Interaction.Contract

variable {σ ι O ε : Type} {A : O → Type} {α γ : Type}

/-- The postcondition of a result that may be an error. -/
def Verdict (Q : Post σ O A α) (E : Post σ O A ε) : Post σ O A (Except ε α)
  | .ok a => Q a
  | .error e => E e

def SafeEx (C : Contract σ ι O A) (Q : Post σ O A α) (E : Post σ O A ε) (x : ExceptT ε (Prog O A) α)
    (tr : Trace σ O A) (s : σ) : Prop :=
  C.Safe (Verdict Q E) x.run tr s

section Rules
variable {C : Contract σ ι O A} {Q Q' : Post σ O A α} {E E' : Post σ O A ε} {tr tr' : Trace σ O A}
  {s s' : σ}

lemma Verdict.mono {r : Except ε α} (h : Verdict Q E r tr s) (hQ : ∀ a, Q a tr s → Q' a tr s)
    (hE : ∀ e, E e tr s → E' e tr s) : Verdict Q' E' r tr s := by
  cases r with
  | ok a => exact hQ a h
  | error e => exact hE e h

theorem SafeEx.pure {a : α} (h : ∀ tr' s', C.Later tr s tr' s' → Q a tr' s') :
    C.SafeEx Q E (Pure.pure a) tr s := h

theorem SafeEx.throw {e : ε} (h : ∀ tr' s', C.Later tr s tr' s' → E e tr' s') :
    C.SafeEx Q E (throwThe ε e) tr s := h

/-- A computation that asks nothing. -/
theorem SafeEx.ofExcept {x : Except ε α}
    (h : ∀ tr' s', C.Later tr s tr' s' → Verdict Q E x tr' s') :
    C.SafeEx Q E (ExceptT.mk (.ret x)) tr s := h

theorem SafeEx.mono {x : ExceptT ε (Prog O A) α} (h : C.SafeEx Q E x tr s)
    (hQ : ∀ a tr' s', C.Later tr s tr' s' → Q a tr' s' → Q' a tr' s')
    (hE : ∀ e tr' s', C.Later tr s tr' s' → E e tr' s' → E' e tr' s') : C.SafeEx Q' E' x tr s :=
  Safe.mono h fun _ t u hl hr => hr.mono (fun a => hQ a t u hl) fun e => hE e t u hl

theorem SafeEx.bind {x : ExceptT ε (Prog O A) γ} {f : γ → ExceptT ε (Prog O A) α}
    (h : C.SafeEx (fun c t u => C.SafeEx Q E (f c) t u) E x tr s) : C.SafeEx Q E (x >>= f) tr s := by
  refine Safe.bind (Safe.mono (Safe.always h) fun r t u hl hr => ?_)
  cases r with
  | ok c => exact Safe.intro fun t' u' hl' => hr t' u' hl'
  | error e => exact hr

/-- Ask one operation and continue. -/
theorem SafeEx.ask {o : O} {f : A o → ExceptT ε (Prog O A) α}
    (h : ∀ tr' s', C.Later tr s tr' s' → C.Pre o s' ∧
      ∀ i a s'', C.Admissible i → C.perform i o s' = some (a, s'') →
        C.SafeEx Q E (f a) (tr' ++ [⟨s', o, a⟩]) s'') :
    C.SafeEx Q E (ExceptT.lift (Prog.ask o) >>= f) tr s := h

end Rules

end OracleServer.Interaction.Contract
