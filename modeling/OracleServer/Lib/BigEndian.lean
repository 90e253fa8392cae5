import Mathlib

/-! Natural numbers as big-endian byte strings of a fixed width. -/
namespace OracleServer

/-- The number a byte string spells, most significant byte first. -/
def beNat (l : List UInt8) : ℕ := l.foldl (fun acc x => 256 * acc + x.toNat) 0

/-- The `w` bytes of `n`; what does not fit is dropped. -/
def beBytes : ℕ → ℕ → List UInt8
  | 0, _ => []
  | w + 1, n => beBytes w (n / 256) ++ [UInt8.ofNat n]

lemma beNat_concat (l : List UInt8) (b : UInt8) : beNat (l ++ [b]) = 256 * beNat l + b.toNat := by
  simp [beNat]

lemma beNat_append (l m : List UInt8) :
    beNat (l ++ m) = 256 ^ m.length * beNat l + beNat m := by
  induction m using List.reverseRecOn with
  | nil => simp [beNat]
  | append_singleton m b ih =>
    rw [← List.append_assoc, beNat_concat, beNat_concat, ih, List.length_append, List.length_cons,
      List.length_nil]
    ring

lemma beNat_lt (l : List UInt8) : beNat l < 256 ^ l.length := by
  induction l using List.reverseRecOn with
  | nil => simp [beNat]
  | append_singleton l b ih =>
    have hb : b.toNat < 256 := b.toNat_lt
    rw [beNat_concat, List.length_append, List.length_cons, List.length_nil, pow_succ]
    omega

lemma length_beBytes (w n : ℕ) : (beBytes w n).length = w := by
  induction w generalizing n with
  | zero => rfl
  | succ w ih => simp [beBytes, ih]

lemma beBytes_beNat (l : List UInt8) : beBytes l.length (beNat l) = l := by
  induction l using List.reverseRecOn with
  | nil => rfl
  | append_singleton l b ih =>
    have hb : b.toNat < 256 := b.toNat_lt
    have hhigh : (256 * beNat l + b.toNat) / 256 = beNat l := by omega
    have hlow : UInt8.ofNat (256 * beNat l + b.toNat) = b := by
      apply UInt8.toNat_inj.mp
      rw [UInt8.toNat_ofNat']
      omega
    rw [beNat_concat, List.length_append, List.length_cons, List.length_nil, Nat.zero_add, beBytes,
      hhigh, hlow, ih]

lemma beNat_beBytes {w n : ℕ} (h : n < 256 ^ w) : beNat (beBytes w n) = n := by
  induction w generalizing n with
  | zero =>
    have : n = 0 := by simpa using h
    simp [this, beBytes, beNat]
  | succ w ih =>
    have hhigh : n / 256 < 256 ^ w := by
      rw [pow_succ] at h
      omega
    rw [beBytes, beNat_concat, ih hhigh, UInt8.toNat_ofNat']
    omega

/-- Byte strings of one width are equal when they spell one number. -/
lemma beNat_inj {l m : List UInt8} (hlen : l.length = m.length) (h : beNat l = beNat m) :
    l = m := by
  have hl := beBytes_beNat l
  rw [hlen, h, beBytes_beNat] at hl
  exact hl.symm

/-- Only zero bytes spell zero. -/
lemma beNat_eq_zero {l : List UInt8} : beNat l = 0 ↔ ∀ b ∈ l, b = 0 := by
  induction l using List.reverseRecOn with
  | nil => simp [beNat]
  | append_singleton l b ih =>
    have hb : b.toNat = 0 ↔ b = 0 := by
      rw [← UInt8.toNat_inj]
      simp
    rw [beNat_concat]
    simp only [Nat.add_eq_zero_iff, Nat.mul_eq_zero, OfNat.ofNat_ne_zero, false_or, ih, hb,
      List.mem_append, List.mem_singleton]
    constructor
    · rintro ⟨hl, rfl⟩ c (hc | rfl)
      · exact hl c hc
      · rfl
    · intro h
      exact ⟨fun c hc => h c (.inl hc), h b (.inr rfl)⟩

/-- A number is below `256 ^ k` when all but its last `k` bytes are zero. -/
lemma beNat_lt_pow_iff {l : List UInt8} {k : ℕ} :
    beNat l < 256 ^ k ↔ ∀ b ∈ l.take (l.length - k), b = 0 := by
  have hsplit := List.take_append_drop (l.length - k) l
  have hdrop : (l.drop (l.length - k)).length ≤ k := by
    rw [List.length_drop]
    omega
  have hlow := beNat_lt (l.drop (l.length - k))
  have hle : 256 ^ (l.drop (l.length - k)).length ≤ 256 ^ k :=
    Nat.pow_le_pow_right (by norm_num) hdrop
  rw [← beNat_eq_zero]
  nth_rewrite 1 [← hsplit]
  rw [beNat_append]
  constructor
  · intro h
    by_contra hne
    -- a nonzero byte among the first ones leaves a full tail of `k` bytes below it
    have hlong : (l.drop (l.length - k)).length = k := by
      rw [List.length_drop]
      by_cases hk : k ≤ l.length
      · omega
      · exact absurd (by simp [show l.length - k = 0 by omega, beNat]) hne
    rw [hlong] at h
    have hpos : 1 ≤ beNat (l.take (l.length - k)) := Nat.one_le_iff_ne_zero.mpr hne
    have := Nat.mul_le_mul_left (256 ^ k) hpos
    omega
  · intro h
    rw [h]
    omega

end OracleServer
