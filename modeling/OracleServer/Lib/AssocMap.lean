import Mathlib

/-! Finite maps as association lists with distinct keys, and the one operation Mathlib's
`AList` lacks: keep only the entries a predicate accepts; with the number of entries. -/
namespace OracleServer

abbrev Map (κ β : Type) := AList (fun _ : κ => β)

namespace Map
variable {κ β : Type} [DecidableEq κ]

def len (m : Map κ β) : ℕ := m.entries.length

def retain (p : κ → β → Bool) (m : Map κ β) : Map κ β :=
  ⟨m.entries.filter fun e => p e.1 e.2, m.nodupKeys.sublist List.filter_sublist⟩

theorem lookup_retain (p : κ → β → Bool) (m : Map κ β) (k : κ) :
    (m.retain p).lookup k = (m.lookup k).filter (p k) := by
  apply Option.ext
  intro b
  rw [← Option.mem_def, AList.mem_lookup_iff, ← Option.mem_def, Option.mem_filter_iff,
    AList.mem_lookup_iff]
  simp [retain, List.mem_filter]

theorem lookup_insert_eq (m : Map κ β) (a k : κ) (b : β) :
    (m.insert a b).lookup k = if k = a then some b else m.lookup k := by
  by_cases h : k = a
  · subst h
    simp
  · rw [if_neg h, AList.lookup_insert_ne h]

theorem lookup_erase_eq (m : Map κ β) (a k : κ) :
    (m.erase a).lookup k = if k = a then none else m.lookup k := by
  by_cases h : k = a
  · subst h
    simp
  · rw [if_neg h, AList.lookup_erase_ne h]

lemma len_erase_le (m : Map κ β) (k : κ) : len (m.erase k) ≤ m.len :=
  (List.kerase_sublist k m.entries).length_le

lemma len_insert_le (m : Map κ β) (k : κ) (b : β) : len (m.insert k b) ≤ m.len + 1 :=
  Nat.succ_le_succ (len_erase_le m k)

lemma len_insert_of_lookup {m : Map κ β} {k : κ} {b' : β} (h : m.lookup k = some b') (b : β) :
    len (m.insert k b) = m.len := by
  have hmem : k ∈ m.keys := AList.lookup_isSome.mp (by rw [h]; rfl)
  have hpos : 0 < m.keys.length := List.length_pos_of_mem hmem
  have hkeys : ∀ m' : Map κ β, m'.len = m'.keys.length := fun m' => (List.length_map _).symm
  rw [hkeys, hkeys, AList.keys_insert, List.length_cons, List.length_erase_of_mem hmem]
  omega

lemma len_retain_erase_le (p : κ → β → Bool) (m : Map κ β) (k : κ) :
    (retain p (m.erase k)).len ≤ (m.retain p).len :=
  ((List.kerase_sublist k m.entries).filter _).length_le

/-- What loses no entry is as long as before. -/
lemma len_retain_of_forall {p : κ → β → Bool} {m : Map κ β}
    (h : ∀ k b, m.lookup k = some b → p k b = true) : (m.retain p).len = m.len := by
  have hall : ∀ e ∈ m.entries, p e.1 e.2 = true :=
    fun e he => h e.1 e.2 (AList.mem_lookup_iff.mpr he)
  exact congrArg List.length (List.filter_eq_self.mpr hall)

end Map

end OracleServer
