/-
`calculate_commission` of `apps/core/utils.py` against the integer formula.

The commission is a floating quotient, truncated. Up to the largest price the quotient is nearer to its exact value than
that is to the next integer, so the truncation is right, except where the exact quotient is itself an integer and the
division returns less (`FallsShort`; a correctly rounded division never does). The percent is chosen with `or`, so an
explicit 0 is replaced by the setting.
-/
import Mathlib.Tactic.Linarith
import Mathlib.Tactic.Positivity
import Mathlib.Tactic.FieldSimp
import GigMarketplace.System

namespace GigMarketplace

/-- `a / b` is within a relative error of 2^-53 of the exact quotient -/
def CloseDivision (py : Py) : Prop := ∀ a b : ℤ, 0 < b → |py.trueDiv a b - a / b| ≤ |(a : ℚ) / b| * (1 / 2 ^ 53)

/-- the hundredth of `n` is a whole number and the division returns less -/
def FallsShort (py : Py) (n : ℤ) : Prop := 100 ∣ n ∧ py.trueDiv n 100 < n / 100

/-- the commission is the percentage rounded down, the payout the rest, and neither is more than the amount -/
def CommissionExact (E : Env) (amount : ℤ) (percent : Option ℤ) : Prop :=
  calculateCommission E amount percent =
      (amount * percent.getD E.platformCommissionPercent / 100,
        amount - amount * percent.getD E.platformCommissionPercent / 100) ∧
    0 ≤ (calculateCommission E amount percent).1 ∧ (calculateCommission E amount percent).1 ≤ amount ∧
    0 ≤ (calculateCommission E amount percent).2 ∧ (calculateCommission E amount percent).2 ≤ amount

section

variable {py : Py} {n : ℤ}

theorem truncate_eq {x : ℚ} {k : ℤ} (hk : 0 ≤ k) (hlow : (k : ℚ) ≤ x) (hhigh : x < k + 1) : truncate x = k := by
  have hx : 0 ≤ x := (Int.cast_nonneg hk).trans hlow
  rw [truncate, if_pos hx, Int.floor_eq_iff]
  exact ⟨hlow, hhigh⟩

/-- how far the quotient can be off, for products of prices and percentages -/
theorem abs_trueDiv_sub_le (hdiv : CloseDivision py) (hn : 0 ≤ n) (hmax : n ≤ 2147483647 * 100) :
    |py.trueDiv n 100 - n / 100| ≤ 1 / 2 ^ 21 := by
  have hnQ : (0 : ℚ) ≤ n := by exact_mod_cast hn
  have hmaxQ : (n : ℚ) ≤ 2147483647 * 100 := by exact_mod_cast hmax
  calc |py.trueDiv n 100 - n / 100| ≤ |(n : ℚ) / 100| * (1 / 2 ^ 53) := by
        have hclose := hdiv n 100 (by decide)
        push_cast at hclose
        exact hclose
    _ = n / 100 * (1 / 2 ^ 53) := by rw [abs_of_nonneg (by positivity)]
    _ ≤ 2147483647 * 100 / 100 * (1 / 2 ^ 53) := by gcongr
    _ ≤ 1 / 2 ^ 21 := by norm_num

theorem trueDiv_zero (hdiv : CloseDivision py) : py.trueDiv 0 100 = 0 := by
  have hclose := hdiv 0 100 (by decide)
  simpa using hclose

/-- the truncated quotient is the integer quotient, unless the division falls short of a whole number -/
theorem truncate_trueDiv (hdiv : CloseDivision py) (hn : 0 ≤ n) (hmax : n ≤ 2147483647 * 100)
    (hshort : ¬ FallsShort py n) : truncate (py.trueDiv n 100) = n / 100 := by
  obtain ⟨hoff, hoff'⟩ := abs_le.1 (abs_trueDiv_sub_le hdiv hn hmax)
  have hsplit : (n : ℚ) / 100 = (n / 100 : ℤ) + ((n % 100 : ℤ) : ℚ) / 100 := by
    have hmod : (n : ℚ) = 100 * (n / 100 : ℤ) + (n % 100 : ℤ) := by exact_mod_cast (Int.mul_ediv_add_emod n 100).symm
    linarith
  have hrest : ((n % 100 : ℤ) : ℚ) ≤ 99 := by exact_mod_cast (show n % 100 ≤ 99 by omega)
  by_cases hwhole : n % 100 = 0
  · -- a whole number, and the division is not below it
    have hge : (n : ℚ) / 100 ≤ py.trueDiv n 100 := not_lt.1 fun hlt => hshort ⟨Int.dvd_of_emod_eq_zero hwhole, hlt⟩
    rw [hwhole] at hsplit
    refine truncate_eq (by omega) ?_ ?_
    · linarith
    · linarith
  · have hrest' : (1 : ℚ) ≤ (n % 100 : ℤ) := by exact_mod_cast (show 1 ≤ n % 100 by omega)
    refine truncate_eq (by omega) ?_ ?_
    · linarith
    · linarith

/-- there it is one less -/
theorem truncate_trueDiv_short (hdiv : CloseDivision py) (hn : 0 ≤ n) (hmax : n ≤ 2147483647 * 100)
    (hshort : FallsShort py n) : truncate (py.trueDiv n 100) = n / 100 - 1 := by
  obtain ⟨⟨k, rfl⟩, hlt⟩ := hshort
  obtain ⟨hoff, -⟩ := abs_le.1 (abs_trueDiv_sub_le hdiv hn hmax)
  have hk : k ≠ 0 := by
    rintro rfl
    rw [mul_zero, trueDiv_zero hdiv] at hlt
    norm_num at hlt
  have hexact : ((100 * k : ℤ) : ℚ) / 100 = k := by
    push_cast
    field_simp
  rw [hexact] at hoff hlt
  rw [Int.mul_ediv_cancel_left k (by decide)]
  refine truncate_eq (by omega) ?_ ?_
  · push_cast
    linarith
  · push_cast
    linarith

theorem truncate_eq_iff (hdiv : CloseDivision py) (hn : 0 ≤ n) (hmax : n ≤ 2147483647 * 100) :
    truncate (py.trueDiv n 100) = n / 100 ↔ ¬ FallsShort py n := by
  refine ⟨fun heq hshort => ?_, truncate_trueDiv hdiv hn hmax⟩
  rw [truncate_trueDiv_short hdiv hn hmax hshort] at heq
  omega

end

section

variable {E : Env} {amount : ℤ} {percent : Option ℤ}

/-- the percentage the code works with -/
def usedPercent (E : Env) (percent : Option ℤ) : ℤ :=
  if percent.getD 0 ≠ 0 then percent.getD 0 else E.platformCommissionPercent

/-- exact means that the truncated quotient is the commission asked for -/
theorem commissionExact_iff (hamount : 0 ≤ amount) (hasked : 0 ≤ percent.getD E.platformCommissionPercent)
    (hmax : percent.getD E.platformCommissionPercent ≤ 100) :
    CommissionExact E amount percent ↔ truncate (E.py.trueDiv (amount * usedPercent E percent) 100) =
      amount * percent.getD E.platformCommissionPercent / 100 := by
  have hlow : 0 ≤ amount * percent.getD E.platformCommissionPercent / 100 := Int.ediv_nonneg (by positivity) (by decide)
  have hhigh : amount * percent.getD E.platformCommissionPercent / 100 ≤ amount := by
    refine Int.ediv_le_of_le_mul (by decide) ?_
    gcongr
  have hcode : calculateCommission E amount percent =
      (truncate (E.py.trueDiv (amount * usedPercent E percent) 100),
        amount - truncate (E.py.trueDiv (amount * usedPercent E percent) 100)) := rfl
  unfold CommissionExact
  rw [hcode]
  constructor
  · intro h
    exact (Prod.ext_iff.1 h.1).1
  · intro h
    rw [h]
    exact ⟨rfl, hlow, hhigh, by omega, by omega⟩

/-- where no explicit 0 is replaced, the percentage asked for is used -/
theorem usedPercent_eq (hsame : percent = some 0 → E.platformCommissionPercent = 0) :
    usedPercent E percent = percent.getD E.platformCommissionPercent := by
  unfold usedPercent
  cases percent with
  | none => rfl
  | some p =>
    split_ifs with hp
    · rfl
    · obtain rfl : p = 0 := not_not.1 hp
      exact hsame rfl

/-- a commission that is not asked for comes out as 0 only where the division falls short of 1 -/
theorem truncate_eq_zero_iff {py : Py} {n : ℤ} (hdiv : CloseDivision py) (hn : 100 ≤ n) (hmax : n ≤ 2147483647 * 100) :
    truncate (py.trueDiv n 100) = 0 ↔ n = 100 ∧ FallsShort py 100 := by
  by_cases hshort : FallsShort py n
  · rw [truncate_trueDiv_short hdiv (by omega) hmax hshort]
    obtain ⟨k, hk⟩ := hshort.1
    constructor
    · intro h
      have h100 : n = 100 := by omega
      exact ⟨h100, h100 ▸ hshort⟩
    · rintro ⟨rfl, -⟩
      decide
  · rw [truncate_trueDiv hdiv (by omega) hmax hshort]
    constructor
    · intro h
      omega
    · rintro ⟨rfl, h⟩
      exact absurd h hshort

/-- right if no explicit 0 is replaced and the division does not fall short; and where both happen and cancel -/
theorem commission_exact_iff (hdiv : CloseDivision E.py) (hamount : 100 ≤ amount ∧ amount ≤ 2147483647)
    (hsetting : 0 ≤ E.platformCommissionPercent ∧ E.platformCommissionPercent ≤ 100)
    (hpercent : ∀ p ∈ percent, 0 ≤ p ∧ p ≤ 100) :
    CommissionExact E amount percent ↔
      ((percent = some 0 → E.platformCommissionPercent = 0) ∧
          ¬ FallsShort E.py (amount * percent.getD E.platformCommissionPercent)) ∨
        (percent = some 0 ∧ amount * E.platformCommissionPercent = 100 ∧ FallsShort E.py 100) := by
  have hasked : 0 ≤ percent.getD E.platformCommissionPercent ∧ percent.getD E.platformCommissionPercent ≤ 100 := by
    cases percent with
    | none => exact hsetting
    | some p => exact hpercent p rfl
  have hrange : ∀ p, 0 ≤ p ∧ p ≤ 100 → 0 ≤ amount * p ∧ amount * p ≤ 2147483647 * 100 := by
    intro p hp
    exact ⟨mul_nonneg (by omega) hp.1, mul_le_mul hamount.2 hp.2 hp.1 (by decide)⟩
  rw [commissionExact_iff (by omega) hasked.1 hasked.2]
  by_cases hzero : percent = some 0 ∧ E.platformCommissionPercent ≠ 0
  · -- the setting is used where 0 was asked for
    obtain ⟨rfl, hset⟩ := hzero
    have hfull : 100 ≤ amount * E.platformCommissionPercent :=
      calc (100 : ℤ) ≤ amount * 1 := by omega
        _ ≤ amount * E.platformCommissionPercent := Int.mul_le_mul_of_nonneg_left (by omega) (by omega)
    have hused : usedPercent E (some 0) = E.platformCommissionPercent := rfl
    rw [hused, Option.getD_some, mul_zero, Int.zero_ediv, truncate_eq_zero_iff hdiv hfull (hrange _ hsetting).2]
    constructor
    · exact fun h => .inr ⟨rfl, h⟩
    · rintro (⟨h, -⟩ | ⟨-, h⟩)
      · exact absurd (h rfl) hset
      · exact h
  · -- the percentage asked for is used
    have hsame : percent = some 0 → E.platformCommissionPercent = 0 := fun h => not_not.1 fun hset => hzero ⟨h, hset⟩
    obtain ⟨hn, hmax⟩ := hrange _ hasked
    rw [usedPercent_eq hsame, truncate_eq_iff hdiv hn hmax]
    constructor
    · exact fun h => .inl ⟨hsame, h⟩
    · rintro (⟨-, h⟩ | ⟨h, hprod, -⟩)
      · exact h
      · rw [hsame h, mul_zero] at hprod
        omega

theorem closeDivision_demo : CloseDivision demoPy := fun a b _ => by
  rw [show demoPy.trueDiv a b = a / b from rfl, sub_self, abs_zero]
  positivity

theorem not_fallsShort_demo (n : ℤ) : ¬ FallsShort demoPy n := by
  rintro ⟨-, hlt⟩
  rw [show demoPy.trueDiv n 100 = n / (100 : ℤ) from rfl, Int.cast_ofNat] at hlt
  exact lt_irrefl _ hlt

/-- the default percentage of a price -/
theorem commission_exact_demo : CommissionExact demoEnv 100005 none :=
  (@commission_exact_iff demoEnv 100005 none closeDivision_demo (by decide) (by decide) (by simp)).2
    (.inl ⟨by simp, not_fallsShort_demo _⟩)

/-- no commission asked for, a tenth taken -/
theorem zero_commission_ignored : ¬ CommissionExact demoEnv 100000 (some 0) := by
  intro h
  exact absurd (Prod.ext_iff.1 h.1).1 (by decide +kernel)

end

end GigMarketplace
