import Mathlib

/-! Integers rounded to a number of significant bits, as a float of that precision holds
them. -/
namespace OracleServer

/-- `n` rounded to `p` significant bits; a tie goes to the even one. -/
def roundSignificant (p n : ℕ) : ℕ :=
  let unit := 2 ^ (n.log2 + 1 - p)
  let below := n / unit
  if 2 * (n % unit) < unit ∨ (2 * (n % unit) = unit ∧ below % 2 = 0) then below * unit
  else (below + 1) * unit

/-- `n as f64`: the value of the float, for an integer far below the largest one. -/
def asF64 (n : ℤ) : ℤ := n.sign * roundSignificant 53 n.natAbs

theorem roundSignificant_eq {p n : ℕ} (h : n < 2 ^ p) : roundSignificant p n = n := by
  rcases Nat.eq_zero_or_pos n with rfl | hpos
  · simp [roundSignificant]
  · have hbits : n.log2 + 1 - p = 0 := by
      have hlog := (Nat.log2_lt (Nat.ne_of_gt hpos)).mpr h
      omega
    simp [roundSignificant, hbits, Nat.mod_one]

/-- An integer of at most 53 bits is its own float. -/
theorem asF64_eq {n : ℤ} (h : n.natAbs < 2 ^ 53) : asF64 n = n := by
  rw [asF64, roundSignificant_eq h, Int.sign_mul_natAbs]

example : asF64 (2 ^ 53 + 1) = 2 ^ 53 ∧ asF64 (-(2 ^ 53 + 3)) = -(2 ^ 53 + 4) := by decide

end OracleServer
