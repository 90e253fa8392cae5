import Mathlib

/-! Runs of a partial step function, with the two induction rules the development
uses: an invariant carried along a run, and a simulation of the run from which the
events of one kind have been erased. -/
namespace OracleServer.Machine

variable {σ τ ε : Type*}

/-- Apply the events in order; `none` as soon as one of them is not enabled. -/
def run (step : σ → ε → Option σ) : σ → List ε → Option σ
  | s, [] => some s
  | s, e :: es => (step s e).bind (run step · es)

theorem run_nil (step : σ → ε → Option σ) (s : σ) : run step s [] = some s := rfl

theorem run_cons {step : σ → ε → Option σ} {s s' : σ} {e : ε} {es : List ε} :
    run step s (e :: es) = some s' ↔ ∃ m, step s e = some m ∧ run step m es = some s' := by
  simp only [run, Option.bind_eq_some_iff]

theorem run_append {step : σ → ε → Option σ} {s s' : σ} {es fs : List ε} :
    run step s (es ++ fs) = some s' ↔ ∃ m, run step s es = some m ∧ run step m fs = some s' := by
  induction es generalizing s with
  | nil => simp [run]
  | cons e es ih =>
    rw [List.cons_append, run_cons]
    constructor
    · rintro ⟨m, hm, hrest⟩
      obtain ⟨n, hn, hfs⟩ := ih.mp hrest
      exact ⟨n, run_cons.mpr ⟨m, hm, hn⟩, hfs⟩
    · rintro ⟨n, hn, hfs⟩
      obtain ⟨m, hm, hes⟩ := run_cons.mp hn
      exact ⟨m, hm, ih.mpr ⟨n, hes, hfs⟩⟩

theorem run_snoc {step : σ → ε → Option σ} {s s' : σ} {es : List ε} {e : ε} :
    run step s (es ++ [e]) = some s' ↔ ∃ m, run step s es = some m ∧ step m e = some s' := by
  rw [run_append]
  simp [run]

/-- The invariant rule. Only events that satisfy `ok` occur in the run. -/
theorem run_invariant {step : σ → ε → Option σ} {I : σ → Prop} {ok : ε → Prop}
    (hstep : ∀ s e s', ok e → I s → step s e = some s' → I s') {s s' : σ} {es : List ε}
    (hok : ∀ e ∈ es, ok e) (hs : I s) (hrun : run step s es = some s') : I s' := by
  induction es generalizing s with
  | nil =>
    rw [run_nil] at hrun
    exact Option.some.inj hrun ▸ hs
  | cons e es ih =>
    obtain ⟨m, hm, hrest⟩ := run_cons.mp hrun
    have hI : I m := hstep s e m (hok e (by simp)) hs hm
    exact ih (fun e' he' => hok e' (by simp [he'])) hI hrest

/-- The erasure rule: events outside `keep` move only the left machine and stay inside
the relation, the others are matched step by step. -/
theorem run_erase {step : σ → ε → Option σ} {step' : τ → ε → Option τ} {keep : ε → Bool}
    {R : σ → τ → Prop} {ok : ε → Prop}
    (hkeep : ∀ s t e s', ok e → keep e = true → R s t → step s e = some s' →
      ∃ t', step' t e = some t' ∧ R s' t')
    (hdrop : ∀ s t e s', ok e → keep e = false → R s t → step s e = some s' → R s' t)
    {s s' : σ} {t : τ} {es : List ε} (hok : ∀ e ∈ es, ok e) (hR : R s t)
    (hrun : run step s es = some s') :
    ∃ t', run step' t (es.filter keep) = some t' ∧ R s' t' := by
  induction es generalizing s t with
  | nil =>
    rw [run_nil] at hrun
    exact ⟨t, rfl, Option.some.inj hrun ▸ hR⟩
  | cons e es ih =>
    obtain ⟨m, hm, hrest⟩ := run_cons.mp hrun
    have hoke : ok e := hok e (by simp)
    have hokes : ∀ e' ∈ es, ok e' := fun e' he' => hok e' (by simp [he'])
    cases hk : keep e with
    | false =>
      rw [List.filter_cons_of_neg (by simp [hk])]
      exact ih hokes (hdrop s t e m hoke hk hR hm) hrest
    | true =>
      rw [List.filter_cons_of_pos hk]
      obtain ⟨t₁, ht₁, hR₁⟩ := hkeep s t e m hoke hk hR hm
      obtain ⟨t', ht', hR'⟩ := ih hokes hR₁ hrest
      exact ⟨t', run_cons.mpr ⟨t₁, ht₁, ht'⟩, hR'⟩

end OracleServer.Machine
