import Mathlib

/-! Percent-encoding of bytes, for any set of bytes that stand for themselves, lists that a
separator splits, and the paths a URL parser makes of their segments. -/
namespace OracleServer

def hexUpper (n : ℕ) : Char := if n < 10 then Char.ofNat (48 + n) else Char.ofNat (55 + n)

def hexValue (c : Char) : Option ℕ :=
  if '0' ≤ c ∧ c ≤ '9' then some (c.toNat - 48)
  else if 'A' ≤ c ∧ c ≤ 'F' then some (c.toNat - 55)
  else none

lemma hexValue_hexUpper {n : ℕ} (h : n < 16) : hexValue (hexUpper n) = some n := by
  interval_cases n <;> rfl

/-- The bytes that `keep` holds of stand for themselves. -/
def percentByte (keep : UInt8 → Bool) (b : UInt8) : List Char :=
  if keep b then [Char.ofNat b.toNat] else ['%', hexUpper (b.toNat / 16), hexUpper (b.toNat % 16)]

def percentEncode (keep : UInt8 → Bool) (bytes : List UInt8) : List Char :=
  bytes.flatMap (percentByte keep)

def percentDecode : List Char → Option (List UInt8)
  | [] => some []
  | '%' :: hi :: lo :: rest => do
    let h ← hexValue hi
    let l ← hexValue lo
    let bytes ← percentDecode rest
    pure (UInt8.ofNat (16 * h + l) :: bytes)
  | ['%'] | ['%', _] => none
  | c :: rest => (percentDecode rest).map (UInt8.ofNat c.toNat :: ·)

/-- The bytes that may stand for themselves. -/
def Keepable (keep : UInt8 → Bool) : Prop := ∀ b, keep b = true → b < 128 ∧ b ≠ 37

variable {keep : UInt8 → Bool}

lemma toNat_ofNat_of_lt {b : UInt8} (h : b < 128) : (Char.ofNat b.toNat).toNat = b.toNat := by
  have hlt : b.toNat < 128 := h
  rw [Char.toNat_ofNat, if_pos (.inl (by omega))]

lemma percentDecode_byte (hkeep : Keepable keep) (b : UInt8) (rest : List Char) :
    percentDecode (percentByte keep b ++ rest) = (percentDecode rest).map (b :: ·) := by
  unfold percentByte
  split
  · next hb =>
    obtain ⟨hlt, hne⟩ := hkeep b hb
    have hchar : Char.ofNat b.toNat ≠ '%' := by
      intro h
      have hnat := congrArg Char.toNat h
      rw [toNat_ofNat_of_lt hlt] at hnat
      exact hne (UInt8.toNat_inj.mp hnat)
    have hback : UInt8.ofNat (Char.ofNat b.toNat).toNat = b := by
      rw [toNat_ofNat_of_lt hlt, UInt8.ofNat_toNat]
    rw [List.singleton_append, percentDecode]
    · rw [hback]
    all_goals simp [hchar]
  · have hb := b.toNat_lt
    have hhi : b.toNat / 16 < 16 := by omega
    have hlo : b.toNat % 16 < 16 := by omega
    have hsum : UInt8.ofNat (16 * (b.toNat / 16) + b.toNat % 16) = b := by
      rw [Nat.div_add_mod, UInt8.ofNat_toNat]
    simp only [List.cons_append, List.nil_append, percentDecode, hexValue_hexUpper hhi,
      hexValue_hexUpper hlo, Option.bind_eq_bind, Option.bind_some, hsum]
    cases percentDecode rest <;> rfl

theorem percentDecode_encode (hkeep : Keepable keep) (bytes : List UInt8) :
    percentDecode (percentEncode keep bytes) = some bytes := by
  induction bytes with
  | nil => rfl
  | cons b bytes ih =>
    rw [percentEncode, List.flatMap_cons, percentDecode_byte hkeep]
    exact congrArg _ ih

/-- Only the percent sign, hex digits and kept bytes occur. -/
theorem not_mem_percentEncode {c : Char} (hpercent : c ≠ '%') (hhex : hexValue c = none)
    (hc : ∀ b, keep b = true → Char.ofNat b.toNat ≠ c) (bytes : List UInt8) :
    c ∉ percentEncode keep bytes := by
  intro h
  obtain ⟨b, -, hb⟩ := List.mem_flatMap.mp h
  unfold percentByte at hb
  split at hb
  · next hkeep => exact hc b hkeep (List.mem_singleton.mp hb).symm
  · have hlt := b.toNat_lt
    have hdigit : ∀ n, n < 16 → c ≠ hexUpper n := by
      rintro n hn rfl
      rw [hexValue_hexUpper hn] at hhex
      cases hhex
    simp only [List.mem_cons, List.not_mem_nil, or_false] at hb
    rcases hb with hb | hb | hb
    · exact hpercent hb
    · exact hdigit _ (by omega) hb
    · exact hdigit _ (by omega) hb

/-- Where the first separator stands. -/
theorem dropWhile_eq_cons {α : Type*} [DecidableEq α] {sep c : α} {l r : List α}
    (h : l.dropWhile (· ≠ sep) = c :: r) : l = l.takeWhile (· ≠ sep) ++ sep :: r := by
  induction l with
  | nil => cases h
  | cons a l ih =>
    by_cases ha : a = sep
    · subst ha
      simp only [ne_eq, decide_not, List.dropWhile_cons, decide_true, Bool.not_true] at h
      obtain ⟨-, rfl⟩ := List.cons.inj h
      simp
    · rw [List.dropWhile_cons_of_pos (by simpa using ha)] at h
      rw [List.takeWhile_cons_of_pos (by simpa using ha), List.cons_append]
      exact congrArg _ (ih h)

theorem split_inj {α : Type*} [DecidableEq α] {sep : α} {l l' r r' : List α} (hl : sep ∉ l)
    (hl' : sep ∉ l') (h : l ++ sep :: r = l' ++ sep :: r') : l = l' ∧ r = r' := by
  have htake : ∀ {l r : List α}, sep ∉ l → (l ++ sep :: r).takeWhile (· ≠ sep) = l := by
    intro l r hl
    have hkept : ∀ a ∈ l, decide (a ≠ sep) = true := by
      intro a ha
      have hne : a ≠ sep := fun h => hl (h ▸ ha)
      simpa using hne
    rw [List.takeWhile_append_of_pos hkept]
    simp
  have hleft : l = l' := by rw [← htake (r := r) hl, h, htake hl']
  subst hleft
  exact ⟨rfl, (List.cons.inj (List.append_cancel_left h)).2⟩

/-- The spellings of a dot in a path. -/
def dots : List (List Char) := [['.'], ['%', '2', 'e'], ['%', '2', 'E']]

/-- A segment that a URL parser takes for the directory itself. -/
def isSingleDot (segment : List Char) : Bool := segment ∈ dots

/-- A segment that it takes for the directory above. -/
def isDoubleDot (segment : List Char) : Bool :=
  segment ∈ dots.flatMap fun first => dots.map (first ++ ·)

/-- The path a URL parser makes of the segments, `done` being those before them from the last
to the first. A dot segment at the end leaves an empty segment. -/
def resolveDots (done : List (List Char)) : List (List Char) → List (List Char)
  | [] => done.reverse
  | segment :: rest =>
    let kept := if isDoubleDot segment then done.tail
      else if isSingleDot segment then done else segment :: done
    if rest.isEmpty && (isDoubleDot segment || isSingleDot segment) then ([] :: kept).reverse
    else resolveDots kept rest

/-- Where no segment is a dot segment the path is the segments. -/
theorem resolveDots_plain {segments : List (List Char)} (done : List (List Char))
    (h : ∀ s ∈ segments, isSingleDot s = false ∧ isDoubleDot s = false) :
    resolveDots done segments = done.reverse ++ segments := by
  induction segments generalizing done with
  | nil => simp [resolveDots]
  | cons segment rest ih =>
    obtain ⟨hsingle, hdouble⟩ := h segment List.mem_cons_self
    rw [resolveDots, hsingle, hdouble]
    simp [ih (segment :: done) fun s hs => h s (List.mem_cons_of_mem _ hs)]

end OracleServer
