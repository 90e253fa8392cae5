import Mathlib

/-! What a log leaves behind when some of its entries overwrite one value: that of the last
entry that wrote, or the first value if none did. -/
namespace OracleServer

variable {α β : Type*}

/-- `w a` is what the entry `a` writes, if it does. -/
def lastWrite (w : α → Option β) (b : β) (log : List α) : β := log.foldl (fun b a => (w a).getD b) b

namespace lastWrite
variable {w : α → Option β} {b : β} {log : List α}

theorem append (l l' : List α) : lastWrite w b (l ++ l') = lastWrite w (lastWrite w b l) l' :=
  List.foldl_append

theorem quiet (h : ∀ a ∈ log, w a = none) : lastWrite w b log = b := by
  induction log with
  | nil => rfl
  | cons a log ih =>
    have ha : w a = none := h a List.mem_cons_self
    have hrest := ih fun x hx => h x (List.mem_cons_of_mem _ hx)
    simpa [lastWrite, ha] using hrest

theorem split {before after : List α} {a : α} {c : β} (ha : w a = some c)
    (hafter : ∀ x ∈ after, w x = none) : lastWrite w b (before ++ a :: after) = c := by
  rw [append, ← List.singleton_append, append, quiet hafter]
  simp [lastWrite, ha]

/-- The last entry that wrote, if any did. -/
theorem cases (w : α → Option β) (b : β) (log : List α) :
    ((∀ a ∈ log, w a = none) ∧ lastWrite w b log = b) ∨ ∃ before a after, log = before ++ a :: after ∧
      w a = some (lastWrite w b log) ∧ ∀ x ∈ after, w x = none := by
  induction log using List.reverseRecOn with
  | nil => exact .inl ⟨by simp, rfl⟩
  | append_singleton log a ih =>
    rw [append]
    cases ha : w a with
    | some c => exact .inr ⟨log, a, [], rfl, by simp [lastWrite, ha], fun x hx => nomatch hx⟩
    | none =>
      rw [show lastWrite w (lastWrite w b log) [a] = lastWrite w b log by simp [lastWrite, ha]]
      rcases ih with ⟨hquiet, heq⟩ | ⟨before, c, after, hlog, hc, hafter⟩
      · exact .inl ⟨by simpa [or_imp, forall_and, ha] using hquiet, heq⟩
      · refine .inr ⟨before, c, after ++ [a], by rw [hlog]; simp, hc, ?_⟩
        simpa [or_imp, forall_and, ha] using hafter

end lastWrite

end OracleServer
