/-
Python's decimals and the column numeric(3, 2): when an operation is exact and how far it is off.

`decimalContext` keeps 28 significant digits, so a number with few digits stays as it is (`decimalContext_exact`) and a
quotient is off by at most half a unit of the 28th digit (`abs_decimalContext_sub_le`). Rounded to hundredths by the
column, a quotient with a small divisor is what it would be without the context (`numericColumn_div`): a tie of the
column has three decimals, so it is exact, and any other quotient is too far from a tie.
-/
import Mathlib.Tactic.Linarith
import Mathlib.Tactic.Positivity
import Mathlib.Tactic.FieldSimp
import GigMarketplace.Accounts

namespace GigMarketplace

/-! ## Rounding to an integer -/

theorem roundHalfEven_eq (x : ℚ) : roundHalfEven x =
    if x - ⌊x⌋ < 1 / 2 then ⌊x⌋
    else if 1 / 2 < x - ⌊x⌋ then ⌊x⌋ + 1
    else if ⌊x⌋ % 2 = 0 then ⌊x⌋ else ⌊x⌋ + 1 := rfl

theorem roundHalfEven_intCast (n : ℤ) : roundHalfEven (n : ℚ) = n := by
  simp [roundHalfEven]

theorem abs_roundHalfEven_sub_le (x : ℚ) : |(roundHalfEven x : ℚ) - x| ≤ 1 / 2 := by
  have hle := Int.floor_le x
  have hlt := Int.lt_floor_add_one x
  rw [roundHalfEven_eq]
  split_ifs
  · rw [abs_le]
    constructor <;> linarith
  · push_cast
    rw [abs_le]
    constructor <;> linarith
  · rw [abs_le]
    constructor <;> linarith
  · push_cast
    rw [abs_le]
    constructor <;> linarith

theorem roundHalfEven_nonneg {x : ℚ} (hx : 0 ≤ x) : 0 ≤ roundHalfEven x := by
  have hfloor : 0 ≤ ⌊x⌋ := Int.floor_nonneg.2 hx
  rw [roundHalfEven_eq]
  split_ifs <;> omega

/-! ## The decimal context -/

theorem tenPow_eq (e : ℤ) : tenPow e = 10 ^ e := by
  cases e with
  | ofNat n => simp [tenPow]
  | negSucc n => simp [tenPow, zpow_negSucc]

theorem tenPow_pos (e : ℤ) : 0 < tenPow e := by
  rw [tenPow_eq]
  exact zpow_pos (by norm_num) e

/-- `decimalContext` for a number that is not 0 -/
theorem decimalContext_eq {x : ℚ} (hx : x ≠ 0) :
    decimalContext x = roundHalfEven (x / tenPow (magnitude x - 27)) * tenPow (magnitude x - 27) := if_neg hx

theorem pow_decimalDigits_le {n : ℕ} (hn : n ≠ 0) : 10 ^ (decimalDigits n - 1) ≤ n := by
  rcases Nat.eq_zero_or_pos (decimalDigits n - 1) with h | h
  · rw [h, pow_zero]
    omega
  · by_contra hlt
    have hlen := (Nat.length_toDigits_le_iff (by norm_num) h).2 (not_le.1 hlt)
    unfold decimalDigits at hlen h
    omega

theorem lt_pow_decimalDigits (n : ℕ) : n < 10 ^ decimalDigits n :=
  (Nat.length_toDigits_le_iff (by norm_num) Nat.length_toDigits_pos).1 le_rfl

/-- the first digit of `x` stands at `magnitude x` or before -/
theorem pow_magnitude_le {x : ℚ} (hx : x ≠ 0) : 10 ^ magnitude x ≤ |x| := by
  have hnum : 10 ^ (decimalDigits x.num.natAbs - 1) ≤ x.num.natAbs := pow_decimalDigits_le (by simpa using hx)
  have hden : x.den < 10 ^ decimalDigits x.den := lt_pow_decimalDigits x.den
  have hpos : 1 ≤ decimalDigits x.num.natAbs := Nat.length_toDigits_pos
  have habs : |x| = x.num.natAbs / x.den := by
    rw [Rat.abs_def, Rat.divInt_eq_div]
    simp
  unfold magnitude
  simp only [tenPow_eq]
  split_ifs with h
  · exact h
  · have hsplit : ((decimalDigits x.num.natAbs : ℤ) - decimalDigits x.den - 1) =
        ((decimalDigits x.num.natAbs - 1 : ℕ) : ℤ) - (decimalDigits x.den : ℕ) := by omega
    rw [hsplit, zpow_sub₀ (by norm_num), zpow_natCast, zpow_natCast, habs]
    gcongr
    · exact_mod_cast hnum
    · exact_mod_cast hden.le

theorem magnitude_lt {x : ℚ} (hx : x ≠ 0) {k : ℤ} (h : |x| < 10 ^ k) : magnitude x < k :=
  (zpow_lt_zpow_iff_right₀ (by norm_num)).1 ((pow_magnitude_le hx).trans_lt h)

theorem decimalContext_nonneg {x : ℚ} (hx : 0 ≤ x) : 0 ≤ decimalContext x := by
  by_cases h0 : x = 0
  · exact (if_pos h0).ge
  rw [decimalContext_eq h0]
  have hround := roundHalfEven_nonneg (div_nonneg hx (tenPow_pos (magnitude x - 27)).le)
  exact mul_nonneg (by exact_mod_cast hround) (tenPow_pos _).le

/-- a number with `k` decimals and at most 28 digits stays as it is -/
theorem decimalContext_exact {x : ℚ} {k : ℕ} {m : ℤ} (hm : x * 10 ^ k = m) (hx : |x| < 10 ^ (28 - k : ℤ)) :
    decimalContext x = x := by
  by_cases h0 : x = 0
  · exact (if_pos h0).trans h0.symm
  have hmag := magnitude_lt h0 hx
  obtain ⟨d, hd⟩ : ∃ d : ℕ, (d : ℤ) = 27 - magnitude x - k := ⟨(27 - magnitude x - k).toNat, by omega⟩
  have hscaled : x / tenPow (magnitude x - 27) = ((m * 10 ^ d : ℤ) : ℚ) := by
    rw [tenPow_eq, show magnitude x - 27 = -((k : ℤ) + d) by omega, zpow_neg, div_inv_eq_mul,
      zpow_add₀ (by norm_num), zpow_natCast, zpow_natCast, ← mul_assoc, hm]
    push_cast
    rfl
  rw [decimalContext_eq h0, hscaled, roundHalfEven_intCast, ← hscaled, div_mul_cancel₀ x (tenPow_pos _).ne']

theorem abs_decimalContext_sub_le {x : ℚ} (hx : |x| < 10) : |decimalContext x - x| ≤ 1 / 10 ^ 27 := by
  by_cases h0 : x = 0
  · simp [h0, decimalContext]
  have hmag : magnitude x < 1 := magnitude_lt h0 (by simpa using hx)
  have hulp := tenPow_pos (magnitude x - 27)
  have hle : tenPow (magnitude x - 27) ≤ 1 / 10 ^ 27 := by
    rw [tenPow_eq, one_div, ← zpow_natCast, ← zpow_neg]
    exact zpow_le_zpow_right₀ (by norm_num) (by push_cast; omega)
  rw [decimalContext_eq h0]
  calc |roundHalfEven (x / tenPow (magnitude x - 27)) * tenPow (magnitude x - 27) - x|
      = |roundHalfEven (x / tenPow (magnitude x - 27)) - x / tenPow (magnitude x - 27)| *
          tenPow (magnitude x - 27) := by
        conv_rhs => rw [← abs_of_pos hulp, ← abs_mul, sub_mul, abs_of_pos hulp, div_mul_cancel₀ x hulp.ne']
    _ ≤ 1 / 2 * tenPow (magnitude x - 27) := by
        gcongr
        exact abs_roundHalfEven_sub_le _
    _ ≤ 1 / 10 ^ 27 := by linarith

/-! ## Quotients in the column -/

/-- the integer nearest to `total / count`, halves upwards -/
def nearest (total count : ℤ) : ℤ := (2 * total + count) / (2 * count)

theorem nearest_spec (total : ℤ) {count : ℤ} (hc : 0 < count) :
    2 * count * nearest total count ≤ 2 * total + count ∧
      2 * total + count < 2 * count * (nearest total count + 1) := by
  have hlt := Int.lt_mul_ediv_self_add (x := 2 * total + count) (show 0 < 2 * count by omega)
  unfold nearest
  exact ⟨Int.mul_ediv_self_le (by omega), by linarith⟩

theorem nearest_eq {total count k : ℤ} (hc : 0 < count) (hlow : 2 * count * k ≤ 2 * total + count)
    (hhigh : 2 * total + count < 2 * count * (k + 1)) : nearest total count = k := by
  unfold nearest
  rw [Int.ediv_eq_iff_of_pos (by omega)]
  constructor <;> linarith

/-- an average of hundredths up to 500 is one -/
theorem nearest_bounds {n h x : ℤ} (hn : 0 ≤ n) (hh : 0 ≤ h ∧ h ≤ 500) (hx : 0 ≤ x ∧ x ≤ 500) :
    0 ≤ nearest (n * h + x) (n + 1) ∧ nearest (n * h + x) (n + 1) ≤ 500 := by
  obtain ⟨h0, h5⟩ := hh
  obtain ⟨x0, x5⟩ := hx
  have hprod : n * h ≤ n * 500 := by gcongr
  unfold nearest
  constructor
  · exact Int.ediv_nonneg (by positivity) (by omega)
  · exact Int.lt_add_one_iff.1 (Int.ediv_lt_of_lt_mul (by omega) (by linarith))

/-- halfway between two integers -/
theorem nearest_tie {total count : ℤ} (hc : 0 < count) (htie : 2 * count * nearest total count = 2 * total + count) :
    (total : ℚ) / count = nearest total count - 1 / 2 := by
  have hcQ : (0 : ℚ) < count := by exact_mod_cast hc
  have htieQ : (2 * count * nearest total count : ℚ) = 2 * total + count := by exact_mod_cast htie
  field_simp
  linarith

/-- elsewhere the quotient keeps away from the ties by at least one over twice the count -/
theorem nearest_gap {total count : ℤ} (hc : 0 < count) (htie : 2 * count * nearest total count ≠ 2 * total + count) :
    (nearest total count : ℚ) + 1 / (2 * count) ≤ total / count + 1 / 2 ∧
      (total : ℚ) / count + 1 / 2 ≤ nearest total count + 1 - 1 / (2 * count) := by
  obtain ⟨hlow, hhigh⟩ := nearest_spec total hc
  have hcQ : (0 : ℚ) < count := by exact_mod_cast hc
  have hmid : (total : ℚ) / count + 1 / 2 = (2 * total + count) / (2 * count) := by field_simp
  have hlowQ : (2 * count * nearest total count + 1 : ℚ) ≤ 2 * total + count := by
    exact_mod_cast Int.add_one_le_of_lt (lt_of_le_of_ne hlow htie)
  have hhighQ : (2 * total + count + 1 : ℚ) ≤ 2 * count * (nearest total count + 1) := by
    exact_mod_cast Int.add_one_le_of_lt hhigh
  constructor
  · calc (nearest total count : ℚ) + 1 / (2 * count) = (2 * count * nearest total count + 1) / (2 * count) := by
          field_simp
      _ ≤ (2 * total + count) / (2 * count) := by gcongr
      _ = total / count + 1 / 2 := hmid.symm
  · calc (total : ℚ) / count + 1 / 2 = (2 * total + count) / (2 * count) := hmid
      _ ≤ (2 * count * (nearest total count + 1) - 1) / (2 * count) := by
        gcongr
        linarith
      _ = nearest total count + 1 - 1 / (2 * count) := by field_simp

/-- the context's digits do not move the quotient across a tie of the column -/
theorem floor_decimalContext_div {total count : ℤ} (hc : 0 < count) (hcmax : count ≤ 10 ^ 10)
    (hlt : |(total / 100 / count : ℚ)| < 10) :
    ⌊decimalContext (total / 100 / count) * 100 + 1 / 2⌋ = nearest total count := by
  have hcQ : (0 : ℚ) < count := by exact_mod_cast hc
  have hscale : (total / 100 / count : ℚ) * 100 = total / count := by field_simp
  rw [Int.floor_eq_iff]
  by_cases htie : 2 * count * nearest total count = 2 * total + count
  · -- a tie of the column is exact
    have hhalf := nearest_tie hc htie
    have hexact : decimalContext (total / 100 / count) = total / 100 / count :=
      decimalContext_exact (k := 3) (m := 5 * (2 * nearest total count - 1)) (by push_cast; linarith)
        (hlt.trans (by norm_num))
    rw [hexact]
    constructor <;> linarith
  · have hoff := abs_le.1 (abs_decimalContext_sub_le hlt)
    obtain ⟨hlow, hhigh⟩ := nearest_gap hc htie
    have hgap : 100 * (1 / 10 ^ 27 : ℚ) < 1 / (2 * count) := by
      have hcmaxQ : (count : ℚ) ≤ 10 ^ 10 := by exact_mod_cast hcmax
      rw [lt_div_iff₀ (by positivity)]
      linarith
    constructor <;> linarith

theorem numericColumn_div {total count : ℤ} (ht : 0 ≤ total) (hc : 0 < count) (hcmax : count ≤ 10 ^ 10)
    (hlt : total < 1000 * count) :
    numericColumn (decimalContext (total / 100 / count)) = nearest total count / 100 := by
  have htQ : (0 : ℚ) ≤ total := by exact_mod_cast ht
  have hcQ : (0 : ℚ) < count := by exact_mod_cast hc
  have hq : (0 : ℚ) ≤ total / 100 / count := by positivity
  have hq10 : |(total / 100 / count : ℚ)| < 10 := by
    have hltQ : (total : ℚ) < 1000 * count := by exact_mod_cast hlt
    rw [abs_of_nonneg hq, div_div, div_lt_iff₀ (by positivity)]
    linarith
  have hround : roundHalfAway (decimalContext (total / 100 / count) * 100) = nearest total count := by
    rw [roundHalfAway, if_pos (by linarith [decimalContext_nonneg hq]), floor_decimalContext_div hc hcmax hq10]
  rw [numericColumn, hround]

end GigMarketplace
