import Mathlib

/-! Ordered sets as sorted lists without repeats: equal exactly when they have the same
members. -/
namespace OracleServer

variable {α : Type} [LinearOrder α]

/-- `BTreeSet::from_iter`, as the list of its elements in order. -/
def btreeSet (l : List α) : List α := l.dedup.insertionSort (· ≤ ·)

theorem mem_btreeSet {l : List α} {a : α} : a ∈ btreeSet l ↔ a ∈ l := by
  rw [btreeSet, List.mem_insertionSort, List.mem_dedup]

theorem btreeSet_nodup (l : List α) : (btreeSet l).Nodup :=
  (List.perm_insertionSort _ _).nodup_iff.mpr (List.nodup_dedup l)

/-- Two sorted lists that are rearrangements of each other are the same list. -/
theorem sorted_eq_of_perm {l m : List α} (hperm : l.Perm m) (hl : l.Pairwise (· ≤ ·))
    (hm : m.Pairwise (· ≤ ·)) : l = m :=
  hperm.eq_of_pairwise (fun _ _ _ _ hab hba => le_antisymm hab hba) hl hm

theorem btreeSet_eq_iff {l m : List α} : btreeSet l = btreeSet m ↔ ∀ a, a ∈ l ↔ a ∈ m := by
  constructor
  · intro h a
    rw [← mem_btreeSet, h, mem_btreeSet]
  · intro h
    have hperm : (btreeSet l).Perm (btreeSet m) := by
      rw [List.perm_ext_iff_of_nodup (btreeSet_nodup l) (btreeSet_nodup m)]
      intro a
      rw [mem_btreeSet, mem_btreeSet]
      exact h a
    exact sorted_eq_of_perm hperm (List.pairwise_insertionSort _ _)
      (List.pairwise_insertionSort _ _)

/-- A machine integer's `max` is the larger of the two. -/
instance int64_lawfulOrderMax : Std.LawfulOrderMax Int64 := by
  have hmax : ∀ a b : Int64, max a b = if a ≤ b then b else a := fun _ _ => rfl
  apply Std.LawfulOrderMax.of_max_le_iff
  · intro a b c
    rw [hmax]
    simp only [Int64.le_iff_toInt_le]
    split <;> constructor <;> intro h <;> (try constructor) <;> omega
  · intro a b
    rw [hmax]
    split
    · exact .inr rfl
    · exact .inl rfl

/-- The largest element depends on the members alone. -/
theorem max?_congr {β : Type} [Max β] [LE β] [Std.IsLinearOrder β] [Std.LawfulOrderMax β]
    {l m : List β} (h : ∀ b, b ∈ l ↔ b ∈ m) : l.max? = m.max? := by
  apply Option.ext
  intro b
  rw [List.max?_eq_some_iff, List.max?_eq_some_iff]
  simp only [h]

end OracleServer
