/-
The geo filter of get_available_jobs, in exact real arithmetic: when the bounding box keeps every job that the precise
check would keep.

The box is 1.0018 times as high as the circle (111 km a degree instead of 111.19), so no job is lost by its latitude
(`latitude_in_box`). Its width takes the circle's curvature into account only at the centre's parallel, and longitudes
are compared as plain numbers: it loses jobs near the poles and jobs across the antimeridian. `BoxCovers` is the exact
condition on the centre and the radius.
-/
import Mathlib.Analysis.Real.Pi.Bounds
import GigMarketplace.Core.Sphere
import GigMarketplace.Discovery

namespace GigMarketplace

open Real GigMarketplace.Core.Sphere

/-- `math`, over the reals; `round2` is left open, no filter depends on it -/
noncomputable def realMath (round2 : ℝ → ℝ) : MathModule ℝ where
  radians x := x * (π / 180)
  sin := Real.sin
  cos := Real.cos
  sqrt := Real.sqrt
  atan2 y x := Complex.arg ⟨x, y⟩
  round2 := round2

/-- what CreateJobSerializer admits -/
def Listing.Admitted (j : Listing ℝ) : Prop :=
  (-90 ≤ j.latitude ∧ j.latitude ≤ 90) ∧ -180 ≤ j.longitude ∧ j.longitude ≤ 180

/-- in radians -/
noncomputable def rad (x : ℝ) : ℝ := x * (π / 180)

/-- half the width of the box, in degrees -/
noncomputable def lonDelta (lat radius : ℝ) : ℝ := radius / (111 * cos (rad lat))

/-- the box reaches all longitudes, or it is wider than the circle and the circle does not cross the antimeridian -/
def BoxCovers (lat lon radius : ℝ) : Prop :=
  180 + |lon| ≤ lonDelta lat radius ∨
    lonDelta lat radius < 90 ∧ sin (radius / 6371) ≤ cos (rad lat) * sin (rad (lonDelta lat radius)) ∧
      (|lon| < 90 ∨ sin (radius / 6371) < cos (rad lat) * sin (rad |lon|))

/-- a centre that is not a pole, and a radius that JobFilterSerializer admits -/
structure Searchable (lat lon radius : ℝ) : Prop where
  latitude : -90 < lat ∧ lat < 90
  longitude : -180 ≤ lon ∧ lon ≤ 180
  radius : 0.1 ≤ radius ∧ radius ≤ 200

/-- the search returns the matching jobs within the radius, no more and no fewer -/
def SearchExact (round2 : ℝ → ℝ) (dflt : ℤ) (rows : List (Listing ℝ)) (f : JobFilter ℝ) (lat lon radius : ℝ) : Prop :=
  ∀ j, j ∈ (JobDiscoveryService.getAvailableJobs (realMath round2) dflt rows
      { f with lat := some lat, lon := some lon, radiusKm := some radius }).map FoundJob.job ↔
    j ∈ rows ∧ f.Admits j ∧ j.within (realMath round2) lat lon radius

section

variable {round2 : ℝ → ℝ} {lat lon radius : ℝ} {j : Listing ℝ}

theorem rad_le_rad {x y : ℝ} : rad x ≤ rad y ↔ x ≤ y := by
  unfold rad
  exact mul_le_mul_iff_left₀ (by positivity)

theorem rad_lt_rad {x y : ℝ} : rad x < rad y ↔ x < y := by
  unfold rad
  exact mul_lt_mul_iff_left₀ (by positivity)

theorem abs_rad (x : ℝ) : |rad x| = rad |x| := by
  unfold rad
  rw [abs_mul, abs_of_pos (show (0 : ℝ) < π / 180 by positivity)]

theorem rad_ninety : rad 90 = π / 2 := by
  unfold rad
  ring

theorem rad_straight : rad 180 = π := by
  unfold rad
  ring

theorem rad_add (x y : ℝ) : rad (x + y) = rad x + rad y := by
  unfold rad
  ring

theorem abs_rad_le_quarter {x : ℝ} (h : -90 ≤ x ∧ x ≤ 90) : |rad x| ≤ π / 2 := by
  rw [abs_rad, ← rad_ninety, rad_le_rad, abs_le]
  exact h

/-! ## The precise check -/

theorem haversineDistance_eq (lat1 lon1 lat2 lon2 : ℝ) :
    haversineDistance (realMath round2) lat1 lon1 lat2 lon2 =
      6371 * (2 * Complex.arg ⟨√(1 - hav (rad lat1) (rad lat2) (rad (lon2 - lon1))),
        √(hav (rad lat1) (rad lat2) (rad (lon2 - lon1)))⟩) := by
  have hdphi : rad lat2 - rad lat1 = rad (lat2 - lat1) := by
    unfold rad
    ring
  unfold haversineDistance
  rw [show (6371.0 : ℝ) = 6371 by norm_num, hav, hdphi]
  rfl

theorem longitude_le {lon' : ℝ} (hlon' : -180 ≤ lon' ∧ lon' ≤ 180) : |lon' - lon| ≤ 180 + |lon| :=
  calc |lon' - lon| ≤ |lon'| + |lon| := abs_sub lon' lon
    _ ≤ 180 + |lon| := by
      gcongr
      exact abs_le.2 hlon'

theorem boxCovers_iff :
    BoxCovers lat lon radius ↔
      Covers (rad lat) (radius / 6371) (rad (lonDelta lat radius)) (rad |lon|) := by
  rw [BoxCovers, Covers, ← rad_ninety, ← rad_straight, ← rad_add, rad_le_rad, rad_lt_rad, rad_lt_rad]

section Area

variable (h : Searchable lat lon radius)
include h

theorem Searchable.abs_rad_lat : |rad lat| < π / 2 := by
  rw [abs_rad, ← rad_ninety, rad_lt_rad, abs_lt]
  exact h.latitude

theorem Searchable.cos_pos : 0 < cos (rad lat) := cos_pos_of_mem_Ioo (abs_lt.1 h.abs_rad_lat)

theorem Searchable.radius_pos : 0 < radius := by linarith [h.radius.1]

theorem Searchable.angle_small : radius / 6371 ≤ π / 2 := by
  rw [div_le_iff₀ (by norm_num)]
  linarith [h.radius.2, pi_gt_three]

/-- a job is within the radius iff it lies in the cap of angular radius `radius / 6371` -/
theorem within_iff (hj : -90 ≤ j.latitude ∧ j.latitude ≤ 90) :
    j.within (realMath round2) lat lon radius ↔
      cos (radius / 6371) ≤ cosAngle (rad lat) (rad j.latitude) (rad (j.longitude - lon)) := by
  have hr := h.radius_pos
  have hcos := h.cos_pos.le
  have hcosj : 0 ≤ cos (rad j.latitude) := cos_nonneg_of_abs_le (abs_rad_le_quarter hj)
  have hsmall := h.angle_small
  rw [Listing.within, haversineDistance_eq, ← le_div_iff₀' (by norm_num),
    twice_atan2_le_iff (hav_nonneg hcos hcosj) (hav_le_one hcos hcosj) (by positivity) (by linarith [pi_pos]),
    one_sub_two_hav]

/-! ## The box -/

/-- 111 km a degree is less than the sphere has: the height of the box is enough -/
theorem latitude_in_box (hj : -90 ≤ j.latitude ∧ j.latitude ≤ 90) (hnear : j.within (realMath round2) lat lon radius) :
    |j.latitude - lat| ≤ radius / 111 := by
  have hcap := latitude_of_cap h.abs_rad_lat.le (abs_rad_le_quarter hj) (by linarith [h.radius_pos])
    ((within_iff h hj).1 hnear)
  have hdiff : rad j.latitude - rad lat = rad (j.latitude - lat) := by
    unfold rad
    ring
  rw [hdiff, abs_rad] at hcap
  have hπ : 111 * 180 ≤ 6371 * π := by linarith [pi_gt_d2]
  have hr := h.radius_pos
  calc |j.latitude - lat| = rad |j.latitude - lat| * (180 / π) := by
        unfold rad
        field_simp
    _ ≤ radius / 6371 * (180 / π) := by gcongr
    _ = radius * 180 / (6371 * π) := by field_simp
    _ ≤ radius * 180 / (111 * 180) := by gcongr
    _ = radius / 111 := by ring

theorem contains_iff (hj : -90 ≤ j.latitude ∧ j.latitude ≤ 90) (hnear : j.within (realMath round2) lat lon radius) :
    (boundingBox (realMath round2) lat lon radius).contains j ↔ |j.longitude - lon| ≤ lonDelta lat radius := by
  have hlat := abs_le.1 (latitude_in_box h hj hnear)
  have hbox : boundingBox (realMath round2) lat lon radius =
      ⟨lat - radius / 111, lat + radius / 111, lon - lonDelta lat radius, lon + lonDelta lat radius⟩ := by
    unfold boundingBox
    rw [show (111.0 : ℝ) = 111 by norm_num]
    rfl
  rw [hbox, abs_le]
  simp only [BoundingBox.contains, decide_eq_true_eq]
  constructor
  · rintro ⟨-, -, hmin, hmax⟩
    exact ⟨by linarith, by linarith⟩
  · rintro ⟨hmin, hmax⟩
    exact ⟨by linarith, by linarith, by linarith, by linarith⟩

/-- a given search is exact iff no job within the radius is east or west of the box -/
theorem searchExact_iff_rows {dflt : ℤ} {rows : List (Listing ℝ)} (hrows : ∀ j ∈ rows, j.Admitted) (f : JobFilter ℝ) :
    SearchExact round2 dflt rows f lat lon radius ↔
      ∀ j ∈ rows, f.Admits j → j.within (realMath round2) lat lon radius → |j.longitude - lon| ≤ lonDelta lat radius := by
  have hradius : orDefault (some radius) (dflt : ℝ) = radius := if_neg h.radius_pos.ne'
  refine forall_congr' fun j => ?_
  rw [mem_jobs_of_around rfl rfl, JobFilter.searchRadius, hradius]
  constructor
  · intro heq hj hadm hnear
    exact (contains_iff h (hrows j hj).1 hnear).1 (heq.2 ⟨hj, hadm, hnear⟩).2.2.1
  · intro hin
    constructor
    · rintro ⟨hj, hadm, -, hnear⟩
      exact ⟨hj, hadm, hnear⟩
    · rintro ⟨hj, hadm, hnear⟩
      exact ⟨hj, hadm, (contains_iff h (hrows j hj).1 hnear).2 (hin hj hadm hnear), hnear⟩

/-! ## Centres and radii -/

/-- some job at this longitude is within the radius iff its meridian meets the cap -/
theorem exists_within_iff {lon' : ℝ} :
    (∃ j : Listing ℝ, (-90 ≤ j.latitude ∧ j.latitude ≤ 90) ∧ j.longitude = lon' ∧ j.status = .created ∧
      j.within (realMath round2) lat lon radius) ↔ Meets (rad lat) (radius / 6371) (rad |lon' - lon|) := by
  have heven : ∀ φ' : ℝ, cosAngle (rad lat) φ' (rad |lon' - lon|) = cosAngle (rad lat) φ' (rad (lon' - lon)) := by
    intro φ'
    rw [cosAngle, ← abs_rad, cos_abs, cosAngle]
  constructor
  · rintro ⟨j, hj, rfl, -, hnear⟩
    refine ⟨rad j.latitude, abs_rad_le_quarter hj, ?_⟩
    rw [heven]
    exact (within_iff h hj).1 hnear
  · rintro ⟨φ', hφ', hcap⟩
    have hback : rad (φ' * (180 / π)) = φ' := by
      unfold rad
      field_simp
    have hadm : -90 ≤ φ' * (180 / π) ∧ φ' * (180 / π) ≤ 90 := by
      rw [← abs_le, ← rad_le_rad, ← abs_rad, hback, rad_ninety]
      exact hφ'
    refine ⟨⟨1, "", 100, φ' * (180 / π), lon', .created, 0⟩, hadm, rfl, rfl, (within_iff h hadm).2 ?_⟩
    rw [heven] at hcap
    simpa only [hback] using hcap

theorem exists_longitude {d : ℝ} (hd : 0 ≤ d) (hd' : d ≤ 180 + |lon|) :
    ∃ lon', (-180 ≤ lon' ∧ lon' ≤ 180) ∧ |lon' - lon| = d := by
  obtain ⟨hmin, hmax⟩ := h.longitude
  rcases le_total 0 lon with hlon | hlon
  · rw [abs_of_nonneg hlon] at hd'
    exact ⟨lon - d, ⟨by linarith, by linarith⟩, by rw [sub_sub_cancel_left, abs_neg, abs_of_nonneg hd]⟩
  · rw [abs_of_nonpos hlon] at hd'
    exact ⟨lon + d, ⟨by linarith, by linarith⟩, by rw [add_sub_cancel_left, abs_of_nonneg hd]⟩

/-- a box of a half turn or more means that the circle covers the pole -/
theorem covers_pole_of_wide (hwide : 90 ≤ lonDelta lat radius) : cos (rad lat) ≤ sin (radius / 6371) := by
  have hr := h.radius_pos
  have hcos := h.cos_pos
  have hx : 0 < radius / 6371 := by positivity
  have hx' : radius / 6371 ≤ 1 / 10 := by
    rw [div_le_iff₀ (by norm_num)]
    linarith [h.radius.2]
  have hcube : (radius / 6371) ^ 3 ≤ radius / 6371 * (1 / 10) ^ 2 := by
    rw [pow_succ' (radius / 6371) 2]
    gcongr
  calc cos (rad lat) ≤ radius / 9990 := by
        rw [lonDelta, le_div_iff₀ (by positivity)] at hwide
        linarith
    _ ≤ radius / 6371 - (radius / 6371) ^ 3 / 6 := by linarith
    _ ≤ sin (radius / 6371) := (sin_gt_sub_cube hx).le

/-- a centre and a radius are safe for all jobs and filters iff the box covers the circle -/
theorem searchExact_iff_box :
    (∀ dflt rows f, (∀ j ∈ rows, j.Admitted) → SearchExact round2 dflt rows f lat lon radius) ↔
      BoxCovers lat lon radius := by
  have hdelta : 0 ≤ lonDelta lat radius := by
    have hr := h.radius_pos
    have hcos := h.cos_pos
    unfold lonDelta
    positivity
  have hzero : rad 0 = 0 := zero_mul _
  have hcovers := covers_iff (φ := rad lat) (δ := radius / 6371) (w := rad (lonDelta lat radius)) (ℓ := rad |lon|)
    h.abs_rad_lat (by linarith [h.radius_pos]) h.angle_small (by rwa [← hzero, rad_le_rad])
    (by rw [← hzero, rad_le_rad]; exact abs_nonneg lon)
    (by rw [← rad_straight, rad_le_rad]; exact abs_le.2 h.longitude)
    (by rw [← rad_ninety, rad_le_rad]; exact covers_pole_of_wide h)
  rw [boxCovers_iff, ← hcovers]
  constructor
  · intro hall d hwd hd hmeets
    -- the job on this meridian is lost
    obtain ⟨d, rfl⟩ : ∃ x, rad x = d := ⟨d * (180 / π), by unfold rad; field_simp⟩
    rw [rad_lt_rad] at hwd
    rw [← rad_straight, ← rad_add, rad_le_rad] at hd
    obtain ⟨lon', hlon', rfl⟩ := exists_longitude h (hdelta.trans hwd.le) hd
    obtain ⟨j, hj, rfl, hcreated, hnear⟩ := (@exists_within_iff round2 lat lon radius h lon').2 hmeets
    have hexact := hall 50 [j] ⟨none, none, none, none, none, none, .minusCreatedAt⟩ (by simpa using ⟨hj, hlon'⟩)
    rw [searchExact_iff_rows h (by simpa using ⟨hj, hlon'⟩)] at hexact
    have hin := hexact j (by simp) ⟨hcreated, by simp, by simp, by simp⟩ hnear
    linarith
  · intro hmiss dflt rows f hrows
    rw [searchExact_iff_rows h hrows]
    intro j hj hadm hnear
    by_contra hout
    refine hmiss (rad |j.longitude - lon|) (rad_lt_rad.2 (not_le.1 hout)) ?_
      ((@exists_within_iff round2 lat lon radius h j.longitude).1 ⟨j, (hrows j hj).1, rfl, hadm.1, hnear⟩)
    rw [← rad_straight, ← rad_add, rad_le_rad]
    exact longitude_le (hrows j hj).2

/-- exactness, for given jobs and for a given centre and radius -/
theorem geo_search_exact_iff (round2 : ℝ → ℝ) :
    (∀ dflt rows f, (∀ j ∈ rows, j.Admitted) → (SearchExact round2 dflt rows f lat lon radius ↔
      ∀ j ∈ rows, f.Admits j → j.within (realMath round2) lat lon radius → |j.longitude - lon| ≤ lonDelta lat radius)) ∧
    ((∀ dflt rows f, (∀ j ∈ rows, j.Admitted) → SearchExact round2 dflt rows f lat lon radius) ↔
      BoxCovers lat lon radius) :=
  ⟨fun _ _ f hrows => searchExact_iff_rows h hrows f, searchExact_iff_box h⟩

end Area

end

/-! ## An instance on either side -/

theorem searchable_equator (lon : ℝ) (hlon : -180 ≤ lon ∧ lon ≤ 180) : Searchable 0 lon 5 :=
  ⟨by norm_num, hlon, by norm_num⟩

theorem boxCovers_origin : BoxCovers 0 0 5 := by
  refine .inr ⟨?_, ?_, ?_⟩
  · norm_num [lonDelta, rad]
  · have hrad : 5 / 6371 ≤ rad (lonDelta 0 5) := by
      rw [show rad (lonDelta 0 5) = π * (5 / 19980) by norm_num [lonDelta, rad]; ring]
      linarith [pi_gt_d2]
    have hquarter : rad (lonDelta 0 5) ≤ π / 2 := by
      rw [← rad_ninety, rad_le_rad]
      norm_num [lonDelta, rad]
    rw [show rad 0 = 0 from zero_mul _, cos_zero, one_mul]
    exact sin_le_sin_of_le_of_le_pi_div_two (by linarith [pi_pos]) hquarter hrad
  · norm_num

def noFilter : JobFilter ℝ := ⟨none, none, none, none, none, none, .minusCreatedAt⟩

def originJob : Listing ℝ := ⟨1, "cleaning", 100000, 0, 0, .created, 0⟩

/-- 3.3 km north of the origin -/
def nearJob : Listing ℝ := ⟨2, "cleaning", 100000, 0.03, 0, .created, 0⟩

/-- 5.004 km north of it, in a box of 5 km all the same: a degree counts for 111 km there -/
def edgeJob : Listing ℝ := ⟨3, "cleaning", 100000, 0.045, 0, .created, 0⟩

/-- on the meridian of the origin -/
theorem within_meridian (round2 : ℝ → ℝ) {j : Listing ℝ} (hj : 0 ≤ j.latitude ∧ j.latitude ≤ 90)
    (hlon : j.longitude = 0) : j.within (realMath round2) 0 0 5 ↔ rad j.latitude ≤ 5 / 6371 := by
  have hangle : cosAngle (rad 0) (rad j.latitude) (rad (0 - 0)) = cos (rad j.latitude) := by simp [cosAngle, rad]
  have hrad : 0 ≤ rad j.latitude ∧ rad j.latitude ≤ π := by
    rw [← rad_straight, rad_le_rad, show (0 : ℝ) = rad 0 from (zero_mul _).symm, rad_le_rad]
    exact ⟨hj.1, by linarith [hj.2]⟩
  rw [within_iff (searchable_equator 0 (by norm_num)) ⟨by linarith [hj.1], hj.2⟩, hlon, hangle]
  exact strictAntiOn_cos.le_iff_ge ⟨by norm_num, by linarith [pi_gt_three]⟩ hrad

theorem nearJob_within : nearJob.within (realMath id) 0 0 5 := by
  rw [within_meridian id (by norm_num [nearJob]) rfl]
  norm_num [nearJob, rad]
  linarith [pi_lt_d2]

theorem edgeJob_in_box : (boundingBox (realMath id) 0 0 5).contains edgeJob := by
  norm_num [boundingBox, realMath, edgeJob, BoundingBox.contains]

theorem edgeJob_not_within : ¬ edgeJob.within (realMath id) 0 0 5 := by
  rw [within_meridian id (by norm_num [edgeJob]) rfl]
  norm_num [edgeJob, rad]
  linarith [pi_gt_d2]

/-- Around (0, 0) a search with a radius of 5 km is exact: of these jobs it returns the first two. -/
theorem geo_search_exact_at_origin :
    SearchExact id 50 [originJob, nearJob, edgeJob] noFilter 0 0 5 ∧ nearJob.within (realMath id) 0 0 5 ∧
      (boundingBox (realMath id) 0 0 5).contains edgeJob ∧ ¬ edgeJob.within (realMath id) 0 0 5 :=
  ⟨(geo_search_exact_iff (searchable_equator 0 (by norm_num)) id).2.2 boxCovers_origin 50 _ noFilter
      (by norm_num [originJob, nearJob, edgeJob, Listing.Admitted]),
    nearJob_within, edgeJob_in_box, edgeJob_not_within⟩

def acrossJob : Listing ℝ := ⟨1, "cleaning", 100000, 0, -180, .created, 0⟩

/-- the centre (0, 180) and the job at (0, -180) are the same place -/
theorem geo_search_loses_job :
    Searchable 0 180 5 ∧ acrossJob.Admitted ∧
      ¬ SearchExact id 50 [acrossJob] noFilter 0 180 5 := by
  have harea : Searchable 0 180 5 := searchable_equator 180 (by norm_num)
  have hadm : acrossJob.Admitted := by norm_num [acrossJob, Listing.Admitted]
  refine ⟨harea, hadm, ?_⟩
  rw [searchExact_iff_rows harea (by simpa using hadm)]
  intro hall
  have hnear : acrossJob.within (realMath id) 0 180 5 := by
    rw [within_iff harea hadm.1, show rad (acrossJob.longitude - 180) = -(2 * π) by unfold rad acrossJob; ring]
    norm_num [cosAngle, acrossJob, rad, cos_le_one]
  have hin := hall acrossJob (by simp) ⟨rfl, by simp [noFilter], by simp [noFilter], by simp [noFilter]⟩ hnear
  norm_num [acrossJob, lonDelta, rad] at hin

end GigMarketplace
