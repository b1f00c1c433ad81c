/-
Points on a sphere and the caps around them, in radians.

A point is given by its latitude and by the difference `d` of its longitude to the centre's. `hav` is the haversine of
the angle between the two points, `cosAngle` its cosine, and the point lies in the cap of angular radius `δ` iff
`cos δ ≤ cosAngle φ φ' d`.

Results:
- `twice_atan2_le_iff`: the usual formula `2 * atan2 (√a, √(1 - a))` for the angle, compared with a radius;
- `latitude_of_cap`: a cap does not leave its band of latitudes;
- `meridian_meets_cap_iff`: the meridians that meet a cap, in closed form.
-/
import Mathlib.Analysis.SpecialFunctions.Complex.Arg
import Mathlib.Analysis.SpecialFunctions.Trigonometric.Inverse

namespace GigMarketplace.Core.Sphere

open Real

/-! ## The angle between two points -/

/-- cosine of the angle that two points span at the centre of the sphere -/
noncomputable def cosAngle (φ φ' d : ℝ) : ℝ := sin φ * sin φ' + cos φ * cos φ' * cos d

/-- haversine of the same angle -/
noncomputable def hav (φ φ' d : ℝ) : ℝ := sin ((φ' - φ) / 2) ^ 2 + cos φ * cos φ' * sin (d / 2) ^ 2

theorem sin_half_sq (x : ℝ) : sin (x / 2) ^ 2 = 1 / 2 - cos x / 2 := by
  rw [sin_sq_eq_half_sub, mul_div_cancel₀ x two_ne_zero]

theorem one_sub_two_hav (φ φ' d : ℝ) : 1 - 2 * hav φ φ' d = cosAngle φ φ' d := by
  rw [hav, cosAngle, sin_half_sq, sin_half_sq, cos_sub]
  ring

section Bounds

variable {φ φ' d δ : ℝ}

theorem hav_nonneg (hφ : 0 ≤ cos φ) (hφ' : 0 ≤ cos φ') : 0 ≤ hav φ φ' d := by
  unfold hav
  positivity

theorem hav_le_one (hφ : 0 ≤ cos φ) (hφ' : 0 ≤ cos φ') : hav φ φ' d ≤ 1 := by
  have hsum : cos (φ' + φ) ≤ 1 := cos_le_one _
  have hdiff := one_sub_two_hav φ φ' d
  have hprod : cos φ * cos φ' * (1 + cos d) ≥ 0 := by
    have hcos : -1 ≤ cos d := neg_one_le_cos d
    have : 0 ≤ 1 + cos d := by linarith
    positivity
  rw [cos_add] at hsum
  unfold cosAngle at hdiff
  linarith

/-- `atan2 (√a, √(1 - a))` is an arcsine -/
theorem arg_sqrt {a : ℝ} (h0 : 0 ≤ a) (h1 : a ≤ 1) : Complex.arg ⟨√(1 - a), √a⟩ = arcsin √a := by
  have hnorm : ‖(⟨√(1 - a), √a⟩ : ℂ)‖ = 1 := by
    rw [Complex.norm_def, Complex.normSq_mk, mul_self_sqrt h0, mul_self_sqrt (by linarith)]
    simp
  rw [Complex.arg_of_re_nonneg (sqrt_nonneg _), hnorm, div_one]

/-- the angle of the formula is within `δ` iff its cosine is at least the cosine of `δ` -/
theorem twice_atan2_le_iff {a : ℝ} (h0 : 0 ≤ a) (h1 : a ≤ 1) (hδ : 0 ≤ δ) (hπ : δ ≤ π) :
    2 * Complex.arg ⟨√(1 - a), √a⟩ ≤ δ ↔ cos δ ≤ 1 - 2 * a := by
  have hhalf : 0 ≤ sin (δ / 2) := sin_nonneg_of_nonneg_of_le_pi (by linarith) (by linarith)
  calc 2 * Complex.arg ⟨√(1 - a), √a⟩ ≤ δ
      ↔ arcsin √a ≤ δ / 2 := by
        rw [arg_sqrt h0 h1, le_div_iff₀ two_pos, mul_comm]
    _ ↔ √a ≤ sin (δ / 2) :=
        arcsin_le_iff_le_sin ⟨by linarith [sqrt_nonneg a], sqrt_le_one.2 h1⟩ ⟨by linarith, by linarith⟩
    _ ↔ a ≤ sin (δ / 2) ^ 2 := sqrt_le_left hhalf
    _ ↔ cos δ ≤ 1 - 2 * a := by
        rw [sin_half_sq]
        constructor <;> intro h <;> linarith

/-! ## What a cap covers -/

theorem cos_nonneg_of_abs_le (hφ : |φ| ≤ π / 2) : 0 ≤ cos φ :=
  cos_nonneg_of_neg_pi_div_two_le_of_le (abs_le.1 hφ).1 (abs_le.1 hφ).2

theorem latitude_of_cap (hφ : |φ| ≤ π / 2) (hφ' : |φ'| ≤ π / 2) (hδ : 0 ≤ δ) (hcap : cos δ ≤ cosAngle φ φ' d) :
    |φ' - φ| ≤ δ := by
  obtain ⟨hφ1, hφ2⟩ := abs_le.1 hφ
  obtain ⟨hφ'1, hφ'2⟩ := abs_le.1 hφ'
  have hc : 0 ≤ cos φ * cos φ' := mul_nonneg (cos_nonneg_of_abs_le hφ) (cos_nonneg_of_abs_le hφ')
  have hle : cos δ ≤ cos |φ' - φ| :=
    calc cos δ ≤ sin φ * sin φ' + cos φ * cos φ' * cos d := hcap
      _ ≤ sin φ * sin φ' + cos φ * cos φ' * 1 := by
        gcongr
        exact cos_le_one d
      _ = cos |φ' - φ| := by
        rw [cos_abs, cos_sub]
        ring
  by_contra hlt
  have hπ : |φ' - φ| ≤ π := abs_le.2 ⟨by linarith, by linarith⟩
  exact absurd hle (not_le.2 (cos_lt_cos_of_nonneg_of_le_pi hδ hπ (not_le.1 hlt)))

/-- along a meridian the cosine is bounded, and up to a quarter turn it takes its bound -/
theorem cosAngle_sq_le (φ φ' d : ℝ) : cosAngle φ φ' d ^ 2 ≤ 1 - (cos φ * sin d) ^ 2 := by
  have hφ := sin_sq_add_cos_sq φ
  have hφ' := sin_sq_add_cos_sq φ'
  have hd := sin_sq_add_cos_sq d
  have hcauchy : cosAngle φ φ' d ^ 2 + (sin φ * cos φ' - cos φ * cos d * sin φ') ^ 2
      = (sin φ ^ 2 + cos φ ^ 2 * cos d ^ 2) * (sin φ' ^ 2 + cos φ' ^ 2) := by
    unfold cosAngle
    ring
  have hrest := sq_nonneg (sin φ * cos φ' - cos φ * cos d * sin φ')
  have htotal : (sin φ ^ 2 + cos φ ^ 2 * cos d ^ 2) * (sin φ' ^ 2 + cos φ' ^ 2) = 1 - (cos φ * sin d) ^ 2 := by
    rw [hφ', mul_one, mul_pow, ← hφ, sin_sq d]
    ring
  linarith

theorem exists_cosAngle_eq (h : 0 ≤ cos φ * cos d) :
    ∃ φ', |φ'| ≤ π / 2 ∧ cosAngle φ φ' d = √(1 - (cos φ * sin d) ^ 2) := by
  let z : ℂ := ⟨cos φ * cos d, sin φ⟩
  have hnorm : ‖z‖ = √(1 - (cos φ * sin d) ^ 2) := by
    rw [Complex.norm_def, Complex.normSq_mk]
    congr 1
    calc cos φ * cos d * (cos φ * cos d) + sin φ * sin φ
        = cos φ ^ 2 * cos d ^ 2 + sin φ ^ 2 := by ring
      _ = 1 - (cos φ * sin d) ^ 2 := by
        rw [cos_sq' d, sin_sq φ]
        ring
  refine ⟨Complex.arg z, Complex.abs_arg_le_pi_div_two_iff.2 h, ?_⟩
  have hcos : ‖z‖ * cos (Complex.arg z) = cos φ * cos d := Complex.norm_mul_cos_arg z
  have hsin : ‖z‖ * sin (Complex.arg z) = sin φ := Complex.norm_mul_sin_arg z
  calc cosAngle φ (Complex.arg z) d
      = sin φ * sin (Complex.arg z) + cos φ * cos d * cos (Complex.arg z) := by
        unfold cosAngle
        ring
    _ = ‖z‖ * (sin (Complex.arg z) ^ 2 + cos (Complex.arg z) ^ 2) := by
        rw [← hsin, ← hcos]
        ring
    _ = √(1 - (cos φ * sin d) ^ 2) := by rw [sin_sq_add_cos_sq, mul_one, hnorm]

/-- the meridian at distance `d` has a point in the cap of radius `δ` -/
def Meets (φ δ d : ℝ) : Prop := ∃ φ', |φ'| ≤ π / 2 ∧ cos δ ≤ cosAngle φ φ' d

theorem covers_pole_iff (hφ : |φ| ≤ π / 2) (hδ : 0 ≤ δ) (hδ' : δ ≤ π / 2) : cos δ ≤ |sin φ| ↔ cos φ ≤ sin δ := by
  have hcφ := cos_nonneg_of_abs_le hφ
  have hcδ : 0 ≤ cos δ := cos_nonneg_of_neg_pi_div_two_le_of_le (by linarith) hδ'
  have hsδ : 0 ≤ sin δ := sin_nonneg_of_nonneg_of_le_pi hδ (by linarith)
  calc cos δ ≤ |sin φ| ↔ cos δ ^ 2 ≤ sin φ ^ 2 := by rw [sq_le_sq, abs_of_nonneg hcδ]
    _ ↔ cos φ ^ 2 ≤ sin δ ^ 2 := by rw [cos_sq', sin_sq φ, sub_le_sub_iff_left]
    _ ↔ cos φ ≤ sin δ := by rw [sq_le_sq, abs_of_nonneg hcφ, abs_of_nonneg hsδ]

/-- a meridian meets a cap iff it is near enough, or the cap covers a pole -/
theorem meets_iff (hφ : |φ| ≤ π / 2) (hδ : 0 ≤ δ) (hδ' : δ ≤ π / 2) :
    Meets φ δ d ↔ 0 ≤ cos d ∧ cos φ * |sin d| ≤ sin δ ∨ cos φ ≤ sin δ := by
  have hcφ := cos_nonneg_of_abs_le hφ
  have hcδ : 0 ≤ cos δ := cos_nonneg_of_neg_pi_div_two_le_of_le (by linarith) hδ'
  have hsδ : 0 ≤ sin δ := sin_nonneg_of_nonneg_of_le_pi hδ (by linarith)
  have hnear : cos δ ^ 2 ≤ 1 - (cos φ * sin d) ^ 2 ↔ cos φ * |sin d| ≤ sin δ := by
    rw [cos_sq', sub_le_sub_iff_left, sq_le_sq, abs_mul, abs_of_nonneg hcφ, abs_of_nonneg hsδ]
  rw [← covers_pole_iff hφ hδ hδ']
  constructor
  · rintro ⟨φ', hφ', hcap⟩
    have hcφ' := cos_nonneg_of_abs_le hφ'
    rcases le_or_gt 0 (cos d) with hd | hd
    · exact .inl ⟨hd, hnear.1 ((pow_le_pow_left₀ hcδ hcap 2).trans (cosAngle_sq_le φ φ' d))⟩
    · -- more than a quarter turn away: only what lies beyond the pole is near
      refine .inr ?_
      calc cos δ ≤ sin φ * sin φ' + cos φ * cos φ' * cos d := hcap
        _ ≤ sin φ * sin φ' := by nlinarith [mul_nonneg hcφ hcφ']
        _ ≤ |sin φ| * |sin φ'| := (le_abs_self _).trans_eq (abs_mul _ _)
        _ ≤ |sin φ| := mul_le_of_le_one_right (abs_nonneg _) (abs_sin_le_one φ')
  · rintro (⟨hd, hle⟩ | hpole)
    · obtain ⟨φ', hφ', heq⟩ := exists_cosAngle_eq (mul_nonneg hcφ hd)
      exact ⟨φ', hφ', heq ▸ le_sqrt_of_sq_le (hnear.2 hle)⟩
    · have hπ : 0 ≤ π / 2 := by positivity
      rcases le_total 0 (sin φ) with hs | hs
      · refine ⟨π / 2, (abs_of_nonneg hπ).le, ?_⟩
        simpa [cosAngle, abs_of_nonneg hs] using hpole
      · refine ⟨-(π / 2), by rw [abs_neg, abs_of_nonneg hπ], ?_⟩
        simpa [cosAngle, abs_of_nonpos hs] using hpole

/-! ## Intervals of meridians -/

/-- the meridians within `w` of the centre's cover the cap, seen from a longitude `ℓ` away from the zero meridian: they
go all the way round, or they reach past the cap's edge and the cap stays on this side of the antimeridian -/
def Covers (φ δ w ℓ : ℝ) : Prop :=
  π + ℓ ≤ w ∨ w < π / 2 ∧ sin δ ≤ cos φ * sin w ∧ (ℓ < π / 2 ∨ sin δ < cos φ * sin ℓ)

section Covers

variable {w ℓ : ℝ} (hφ : |φ| < π / 2) (hδ : 0 ≤ δ) (hδ' : δ ≤ π / 2)
include hφ hδ hδ'

/-- the edge of the cap, or the quarter turn where the cap covers a pole -/
theorem exists_meets_edge (hw : 0 ≤ w) (hπ : w < π / 2) (h : cos φ * sin w < sin δ) :
    ∃ d, w < d ∧ d ≤ π / 2 ∧ Meets φ δ d := by
  have hcφ : 0 < cos φ := cos_pos_of_mem_Ioo (abs_lt.1 hφ)
  have hsδ : 0 ≤ sin δ := sin_nonneg_of_nonneg_of_le_pi hδ (by linarith)
  have hd : 0 ≤ arcsin (sin δ / cos φ) := arcsin_nonneg.2 (by positivity)
  have hle : sin (arcsin (sin δ / cos φ)) ≤ sin δ / cos φ := by
    rcases le_total (sin δ / cos φ) 1 with h1 | h1
    · rw [sin_arcsin (by linarith [div_nonneg hsδ hcφ.le]) h1]
    · exact (sin_le_one _).trans h1
  refine ⟨arcsin (sin δ / cos φ), ?_, arcsin_le_pi_div_two _, ?_⟩
  · rw [lt_arcsin_iff_sin_lt' ⟨by linarith, hπ⟩, lt_div_iff₀ hcφ, mul_comm]
    exact h
  · refine (meets_iff hφ.le hδ hδ').2 (.inl ⟨cos_arcsin_nonneg _, ?_⟩)
    rw [abs_of_nonneg (sin_nonneg_of_nonneg_of_le_pi hd (by linarith [arcsin_le_pi_div_two (sin δ / cos φ)]))]
    exact (le_div_iff₀' hcφ).1 hle

theorem exists_meets_of_not_covers (hw : 0 ≤ w) (hℓ : 0 ≤ ℓ) (hℓ' : ℓ ≤ π) (hwide : π / 2 ≤ w → cos φ ≤ sin δ)
    (h : ¬ Covers φ δ w ℓ) : ∃ d, w < d ∧ d ≤ π + ℓ ∧ Meets φ δ d := by
  obtain ⟨hround, hedge⟩ := not_or.1 h
  have hround : w < π + ℓ := not_le.1 hround
  by_cases hπ : π / 2 ≤ w
  · exact ⟨π + ℓ, hround, le_rfl, (meets_iff hφ.le hδ hδ').2 (.inr (hwide hπ))⟩
  have hπ : w < π / 2 := not_le.1 hπ
  by_cases hsin : sin δ ≤ cos φ * sin w
  · -- the interval reaches past the cap's edge, so it is the antimeridian that the cap reaches
    have hanti : ¬ (ℓ < π / 2 ∨ sin δ < cos φ * sin ℓ) := fun hs => hedge ⟨hπ, hsin, hs⟩
    obtain ⟨hℓ2, hle⟩ := not_or.1 hanti
    refine ⟨π + ℓ, hround, le_rfl, (meets_iff hφ.le hδ hδ').2 (.inl ⟨?_, ?_⟩)⟩
    · have hcℓ : cos ℓ ≤ 0 := cos_nonpos_of_pi_div_two_le_of_le (not_lt.1 hℓ2) (by linarith)
      rw [add_comm, cos_add_pi]
      linarith
    · rw [add_comm, sin_add_pi, abs_neg, abs_of_nonneg (sin_nonneg_of_nonneg_of_le_pi hℓ hℓ')]
      exact not_lt.1 hle
  · obtain ⟨d, hwd, hd, hmeets⟩ := exists_meets_edge hφ hδ hδ' hw hπ (not_le.1 hsin)
    exact ⟨d, hwd, by linarith [pi_pos], hmeets⟩

theorem not_meets_of_covers (hw : 0 ≤ w) (hℓ' : ℓ ≤ π) (h : Covers φ δ w ℓ) {d : ℝ} (hwd : w < d) (hd : d ≤ π + ℓ) :
    ¬ Meets φ δ d := by
  have hcφ : 0 < cos φ := cos_pos_of_mem_Ioo (abs_lt.1 hφ)
  obtain hround | ⟨hπ, hsin, hanti⟩ := h
  · exact absurd (hwd.trans_le hd) (not_lt.2 hround)
  rw [meets_iff hφ.le hδ hδ', not_or, not_and, not_le, not_le]
  have hw1 : sin w < 1 := by
    rw [← sin_pi_div_two]
    exact sin_lt_sin_of_lt_of_le_pi_div_two (by linarith [pi_pos]) le_rfl hπ
  refine ⟨fun hcos => ?_, by nlinarith⟩
  rcases le_or_gt d (π / 2) with hquarter | hquarter
  · -- on the centre's side: the sine has grown since `w`
    have hlt : sin w < sin d := sin_lt_sin_of_lt_of_le_pi_div_two (by linarith [pi_pos]) hquarter hwd
    calc sin δ ≤ cos φ * sin w := hsin
      _ < cos φ * sin d := by gcongr
      _ ≤ cos φ * |sin d| := by
        gcongr
        exact le_abs_self _
  · -- on the far side: only the meridians next to the centre's again, across the antimeridian
    have hfar : 3 * π / 2 ≤ d := by
      by_contra hlt
      have hneg : cos d < 0 := cos_neg_of_pi_div_two_lt_of_lt hquarter (by linarith [not_le.1 hlt])
      linarith
    have hℓ : ¬ ℓ < π / 2 := by linarith
    have hle : sin ℓ ≤ sin (d - π) := by
      have hsym : sin (π - ℓ) ≤ sin (2 * π - d) :=
        sin_le_sin_of_le_of_le_pi_div_two (by linarith [pi_pos]) (by linarith) (by linarith)
      have hturn : sin (2 * π - d) = sin (d - π) := by
        rw [← sin_pi_sub]
        congr 1
        ring
      rwa [sin_pi_sub, hturn] at hsym
    calc sin δ < cos φ * sin ℓ := hanti.resolve_left hℓ
      _ ≤ cos φ * sin (d - π) := by gcongr
      _ ≤ cos φ * |sin d| := by
        gcongr
        rw [sin_sub_pi]
        exact neg_le_abs _

/-- every meridian outside the interval misses the cap iff the interval covers it -/
theorem covers_iff (hw : 0 ≤ w) (hℓ : 0 ≤ ℓ) (hℓ' : ℓ ≤ π) (hwide : π / 2 ≤ w → cos φ ≤ sin δ) :
    (∀ d, w < d → d ≤ π + ℓ → ¬ Meets φ δ d) ↔ Covers φ δ w ℓ := by
  constructor
  · intro hmiss
    by_contra hnot
    obtain ⟨d, hwd, hd, hmeets⟩ := exists_meets_of_not_covers hφ hδ hδ' hw hℓ hℓ' hwide hnot
    exact hmiss d hwd hd hmeets
  · intro hcovers d hwd hd
    exact not_meets_of_covers hφ hδ hδ' hw hℓ' hcovers hwd hd

end Covers

end Bounds

end GigMarketplace.Core.Sphere
