/-
`apps/jobs/services.py`: JobDiscoveryService.get_available_jobs, with the distance functions of `apps/core/utils.py` and
JobFilterSerializer of `apps/jobs/serializers.py`.

Floats are the elements of an ordered field `K`, and the functions of the `math` module are parameters
(`MathModule`): what holds here holds of any of them, and `GeoSearch.lean` takes the real ones. A `Listing` is a row of
the query, a job joined with its category. ORDER BY and Python's `sort` are stable sorts; the order in which the engine
reads the rows is the order of the list, and no order is assumed of it. Left out: the rows joined for display (images,
the employer), which no filter reads.
-/
import Mathlib.Algebra.Order.Field.Basic
import GigMarketplace.Core.Sorting
import GigMarketplace.Models

namespace GigMarketplace

open GigMarketplace.Core

/-! ## `apps/core/utils.py` -/

structure MathModule (K : Type) where
  radians : K → K
  sin : K → K
  cos : K → K
  sqrt : K → K
  atan2 : K → K → K
  /-- `round(x, 2)` -/
  round2 : K → K

section Utils

variable {K : Type} [Field K]

/-- great-circle distance in km -/
def haversineDistance (M : MathModule K) (lat1 lon1 lat2 lon2 : K) : K :=
  let R := 6371.0
  let phi1 := M.radians lat1
  let phi2 := M.radians lat2
  let dphi := M.radians (lat2 - lat1)
  let dlambda := M.radians (lon2 - lon1)
  let a := M.sin (dphi / (2 : ℕ)) ^ 2 + M.cos phi1 * M.cos phi2 * M.sin (dlambda / (2 : ℕ)) ^ 2
  let c := (2 : ℕ) * M.atan2 (M.sqrt a) (M.sqrt (1 - a))
  R * c

structure BoundingBox (K : Type) where
  latMin : K
  latMax : K
  lonMin : K
  lonMax : K

def boundingBox (M : MathModule K) (lat lon radiusKm : K) : BoundingBox K :=
  let latDelta := radiusKm / 111.0
  let lonDelta := radiusKm / (111.0 * M.cos (M.radians lat))
  { latMin := lat - latDelta, latMax := lat + latDelta, lonMin := lon - lonDelta, lonMax := lon + lonDelta }

end Utils

/-! ## The query's parameters -/

/-- the choices of `sort_by` -/
inductive SortBy where
  | minusCreatedAt
  | createdAt
  | minusPrice
  | price
  | distance
deriving DecidableEq, Repr

def SortBy.value : SortBy → String
  | .minusCreatedAt => "-created_at"
  | .createdAt => "created_at"
  | .minusPrice => "-price"
  | .price => "price"
  | .distance => "distance"

/-- `sort_by.startswith("-")` -/
def SortBy.startsWithMinus (s : SortBy) : Bool := s.value.toList.head? = some '-'

/-- the arguments of get_available_jobs; `F` is the type of floats -/
structure JobFilter (F : Type) where
  lat : Option F
  lon : Option F
  radiusKm : Option F
  category : Option String
  minPrice : Option ℤ
  maxPrice : Option ℤ
  sortBy : SortBy
deriving DecidableEq, Repr

/-- `value or default`: a missing value and 0 are falsy -/
def orDefault {F : Type} [Zero F] [DecidableEq F] (value : Option F) (default : F) : F :=
  if value.getD 0 = 0 then default else value.getD 0

/-! ## JobFilterSerializer -/

namespace JobFilterSerializer

variable {F : Type} [Zero F] [DecidableEq F]

/-- `not attrs.get(...)` of a number -/
def falsy (value : Option F) : Bool := value.getD 0 = 0

/-- `validate`, after the checks of the single fields; the error's text, if it rejects -/
def validate (attrs : JobFilter F) : Except String (JobFilter F) :=
  if attrs.sortBy = .distance ∧ (falsy attrs.lat ∨ falsy attrs.lon) then
    .error "lat and lon are required when sort_by=distance."
  else if ¬ falsy attrs.minPrice ∧ ¬ falsy attrs.maxPrice ∧ attrs.minPrice.getD 0 > attrs.maxPrice.getD 0 then
    .error "min_price cannot be greater than max_price."
  else .ok attrs

end JobFilterSerializer

/-! ## JobDiscoveryService -/

/-- a row of the query -/
structure Listing (K : Type) where
  id : Pk
  categorySlug : String
  price : ℤ
  latitude : K
  longitude : K
  status : JobStatus
  createdAt : Time
deriving DecidableEq, Repr

/-- a returned job; `distanceKm` is the attribute that the geo filter sets -/
structure FoundJob (K : Type) where
  job : Listing K
  distanceKm : Option K
deriving DecidableEq, Repr

section Query

variable {K : Type}

/-- `qs.order_by(sort_by)` for the four columns; any other choice leaves the ordering of `Job.Meta` -/
def orderBy (s : SortBy) (qs : List (Listing K)) : List (Listing K) :=
  match s with
  | .minusCreatedAt => sortOn Listing.createdAt true qs
  | .createdAt => sortOn Listing.createdAt false qs
  | .minusPrice => sortOn Listing.price true qs
  | .price => sortOn Listing.price false qs
  | .distance => sortOn Listing.createdAt true qs

/-- the filters on status, category and price -/
def filtered (f : JobFilter K) (rows : List (Listing K)) : List (Listing K) :=
  let qs := rows.filter fun j => j.status = .created
  let qs := if f.category.getD "" ≠ "" then qs.filter fun j => j.categorySlug = f.category.getD "" else qs
  let qs := if f.minPrice.isSome then qs.filter fun j => f.minPrice.getD 0 ≤ j.price else qs
  if f.maxPrice.isSome then qs.filter fun j => j.price ≤ f.maxPrice.getD 0 else qs

/-- the job is CREATED and satisfies the filters on category and price -/
def JobFilter.Admits (f : JobFilter K) (j : Listing K) : Prop :=
  j.status = .created ∧ (f.category.getD "" ≠ "" → j.categorySlug = f.category.getD "") ∧
    (f.minPrice.isSome → f.minPrice.getD 0 ≤ j.price) ∧ (f.maxPrice.isSome → j.price ≤ f.maxPrice.getD 0)

instance (f : JobFilter K) : DecidablePred f.Admits := fun j => by
  unfold JobFilter.Admits
  infer_instance

theorem filter_if (c : Prop) [Decidable c] (p : Listing K → Bool) (qs : List (Listing K)) :
    (if c then qs.filter p else qs) = qs.filter fun j => c → p j := by
  split_ifs with h <;> simp [h]

theorem filtered_eq (f : JobFilter K) (rows : List (Listing K)) :
    filtered f rows = rows.filter fun j => f.Admits j := by
  simp only [filtered, filter_if]
  simp only [List.filter_filter]
  refine List.filter_congr fun j _ => ?_
  rw [Bool.eq_iff_iff]
  simp only [Bool.and_eq_true, decide_eq_true_eq]
  unfold JobFilter.Admits
  tauto

end Query

section Service

variable {K : Type} [Field K] [LinearOrder K]

def BoundingBox.contains (b : BoundingBox K) (j : Listing K) : Bool :=
  b.latMin ≤ j.latitude ∧ j.latitude ≤ b.latMax ∧ b.lonMin ≤ j.longitude ∧ j.longitude ≤ b.lonMax

/-- the loop over the rows in the box: those within the radius, with their distance -/
def withDistance (M : MathModule K) (lat lon searchRadius : K) (jobsList : List (Listing K)) : List (FoundJob K) :=
  jobsList.filterMap fun job =>
    let dist := haversineDistance M lat lon job.latitude job.longitude
    if dist ≤ searchRadius then some ⟨job, some (M.round2 dist)⟩ else none

/-- `rows` in the order the engine reads them; `defaultSearchRadiusKm` is the setting -/
def JobDiscoveryService.getAvailableJobs (M : MathModule K) (defaultSearchRadiusKm : ℤ) (rows : List (Listing K))
    (f : JobFilter K) : List (FoundJob K) :=
  let qs := filtered f rows
  let searchRadius := orDefault f.radiusKm defaultSearchRadiusKm
  match f.lat, f.lon with
  | some lat, some lon =>
    let qs := qs.filter (boundingBox M lat lon searchRadius).contains
    let jobsWithDistance := withDistance M lat lon searchRadius (orderBy .minusCreatedAt qs)
    if f.sortBy = .distance then sortOn (fun j => j.distanceKm.getD 0) false jobsWithDistance
    else sortOn (fun j => j.job.createdAt) (!f.sortBy.startsWithMinus) jobsWithDistance
  | _, _ => (orderBy f.sortBy qs).map fun j => ⟨j, none⟩

/-! ## What a search returns -/

/-- the search radius, `radius_km or settings.DEFAULT_SEARCH_RADIUS_KM` -/
def JobFilter.searchRadius (f : JobFilter K) (defaultSearchRadiusKm : ℤ) : K :=
  orDefault f.radiusKm defaultSearchRadiusKm

/-- the precise check -/
def Listing.within (M : MathModule K) (lat lon radius : K) (j : Listing K) : Prop :=
  haversineDistance M lat lon j.latitude j.longitude ≤ radius

instance (M : MathModule K) (lat lon radius : K) : DecidablePred (Listing.within M lat lon radius) := fun j => by
  unfold Listing.within
  infer_instance

variable {M : MathModule K} {dflt : ℤ} {rows : List (Listing K)} {f : JobFilter K} {lat lon radius : K}

theorem withDistance_eq (jobsList : List (Listing K)) :
    withDistance M lat lon radius jobsList = (jobsList.filter fun j => Listing.within M lat lon radius j).map fun j =>
      ⟨j, some (M.round2 (haversineDistance M lat lon j.latitude j.longitude))⟩ := by
  induction jobsList with
  | nil => rfl
  | cons j jobsList ih =>
    by_cases hj : Listing.within M lat lon radius j
    · rw [List.filter_cons_of_pos (by simpa using hj), List.map_cons, ← ih]
      simp [withDistance, show haversineDistance M lat lon j.latitude j.longitude ≤ radius from hj]
    · rw [List.filter_cons_of_neg (by simpa using hj), ← ih]
      simp [withDistance, show ¬ haversineDistance M lat lon j.latitude j.longitude ≤ radius from hj]

/-- without coordinates the filtered rows are returned, in the order asked for -/
theorem jobs_of_anywhere (hlat : f.lat = none) :
    (JobDiscoveryService.getAvailableJobs M dflt rows f).map FoundJob.job = orderBy f.sortBy (filtered f rows) := by
  simp [JobDiscoveryService.getAvailableJobs, hlat, Function.comp_def]

/-- with coordinates the rows in the box that pass the precise check are returned -/
theorem perm_jobs_of_around (hlat : f.lat = some lat) (hlon : f.lon = some lon) :
    ((JobDiscoveryService.getAvailableJobs M dflt rows f).map FoundJob.job).Perm
      (rows.filter fun j => f.Admits j ∧ (boundingBox M lat lon (f.searchRadius dflt)).contains j ∧
        Listing.within M lat lon (f.searchRadius dflt) j) := by
  let qs := (filtered f rows).filter (boundingBox M lat lon (f.searchRadius dflt)).contains
  have hfound : ((JobDiscoveryService.getAvailableJobs M dflt rows f).map FoundJob.job).Perm
      ((withDistance M lat lon (f.searchRadius dflt) (orderBy .minusCreatedAt qs)).map FoundJob.job) := by
    simp only [JobDiscoveryService.getAvailableJobs, hlat, hlon]
    split_ifs
    · exact (perm_sortOn _).map _
    · exact (perm_sortOn _).map _
  refine hfound.trans ?_
  rw [withDistance_eq, List.map_map]
  have hmap : ∀ l : List (Listing K), l.map (FoundJob.job ∘ fun j =>
      ⟨j, some (M.round2 (haversineDistance M lat lon j.latitude j.longitude))⟩) = l := fun l => by
    simp [Function.comp_def]
  rw [hmap]
  refine ((perm_sortOn qs).filter _).trans (List.Perm.of_eq ?_)
  simp only [qs, filtered_eq, List.filter_filter]
  congr 1
  funext j
  grind

theorem mem_jobs_of_around (hlat : f.lat = some lat) (hlon : f.lon = some lon) {j : Listing K} :
    j ∈ (JobDiscoveryService.getAvailableJobs M dflt rows f).map FoundJob.job ↔
      j ∈ rows ∧ f.Admits j ∧ (boundingBox M lat lon (f.searchRadius dflt)).contains j ∧
        Listing.within M lat lon (f.searchRadius dflt) j := by
  rw [(perm_jobs_of_around hlat hlon).mem_iff, List.mem_filter]
  simp

end Service

/-! ## What JobFilterSerializer rejects -/

namespace JobFilterSerializer

variable {F : Type} [Zero F] [DecidableEq F]

/-- what the checks of the single fields leave of the prices -/
def FieldsOk (attrs : JobFilter F) : Prop := (∀ p ∈ attrs.minPrice, 0 ≤ p) ∧ ∀ p ∈ attrs.maxPrice, 0 ≤ p

def Rejects (attrs : JobFilter F) : Prop := ∃ text, validate attrs = .error text

/-- the two rules as the error texts state them: 0 is a coordinate and a price -/
def Inconsistent (attrs : JobFilter F) : Prop :=
  attrs.sortBy = .distance ∧ (attrs.lat = none ∨ attrs.lon = none) ∨
    ∃ lo ∈ attrs.minPrice, ∃ hi ∈ attrs.maxPrice, hi < lo

theorem falsy_iff (value : Option F) : falsy value ↔ value = none ∨ value = some 0 := by
  cases value <;> simp [falsy]

theorem rejects_iff (attrs : JobFilter F) :
    Rejects attrs ↔ attrs.sortBy = .distance ∧ (falsy attrs.lat ∨ falsy attrs.lon) ∨
      ¬ falsy attrs.minPrice ∧ ¬ falsy attrs.maxPrice ∧ attrs.minPrice.getD 0 > attrs.maxPrice.getD 0 := by
  unfold Rejects validate
  split_ifs with hcoords hprices
  · exact ⟨fun _ => .inl hcoords, fun _ => ⟨_, rfl⟩⟩
  · exact ⟨fun _ => .inr hprices, fun _ => ⟨_, rfl⟩⟩
  · refine ⟨?_, fun h => (h.elim hcoords hprices).elim⟩
    rintro ⟨text, h⟩
    cases h

omit [Zero F] [DecidableEq F] in
/-- the second rule compares the prices unless one of them is 0 -/
theorem prices_rule {attrs : JobFilter F} (h : FieldsOk attrs) :
    (∃ lo ∈ attrs.minPrice, ∃ hi ∈ attrs.maxPrice, hi < lo) ↔
      (¬ falsy attrs.minPrice ∧ ¬ falsy attrs.maxPrice ∧ attrs.minPrice.getD 0 > attrs.maxPrice.getD 0) ∨
        attrs.maxPrice = some 0 ∧ ∃ lo ∈ attrs.minPrice, 0 < lo := by
  obtain ⟨hmin, hmax⟩ := h
  rcases hlo : attrs.minPrice with _ | lo
  · simp [falsy]
  rcases hhi : attrs.maxPrice with _ | hi
  · simp [falsy]
  have := hmin lo hlo
  have := hmax hi hhi
  simp [falsy]
  omega

/-- the first rule takes a coordinate 0 for an absent one -/
theorem coords_rule (attrs : JobFilter F) :
    attrs.sortBy = .distance ∧ (falsy attrs.lat ∨ falsy attrs.lon) ↔
      attrs.sortBy = .distance ∧ (attrs.lat = none ∨ attrs.lon = none) ∨
        attrs.sortBy = .distance ∧ (attrs.lat = some 0 ∨ attrs.lon = some 0) := by
  rw [falsy_iff, falsy_iff, ← and_or_left, or_or_or_comm]

/-- two descriptions of a set, each with an excess over the other -/
theorem iff_iff_excess {common excess other missed : Prop} (h : missed → ¬ other) :
    ((common ∨ excess) ∨ other ↔ common ∨ other ∨ missed) ↔
      (excess → common ∨ other ∨ missed) ∧ (missed → common ∨ excess) := by
  tauto

/-- right but for a coordinate 0 of a query that is otherwise consistent, and for a maximum of 0 below the minimum that
the first rule does not reject -/
theorem validate_rejects_iff {attrs : JobFilter F} (h : FieldsOk attrs) :
    (Rejects attrs ↔ Inconsistent attrs) ↔
      (attrs.sortBy = .distance ∧ (attrs.lat = some 0 ∨ attrs.lon = some 0) → Inconsistent attrs) ∧
      (attrs.maxPrice = some 0 ∧ (∃ lo ∈ attrs.minPrice, 0 < lo) →
        attrs.sortBy = .distance ∧ (attrs.lat = none ∨ attrs.lon = none) ∨
          attrs.sortBy = .distance ∧ (attrs.lat = some 0 ∨ attrs.lon = some 0)) := by
  have hmissed : attrs.maxPrice = some 0 ∧ (∃ lo ∈ attrs.minPrice, 0 < lo) → ¬ (¬ falsy attrs.minPrice ∧
      ¬ falsy attrs.maxPrice ∧ attrs.minPrice.getD 0 > attrs.maxPrice.getD 0) := by
    rintro ⟨hmax, -⟩ ⟨-, hpresent, -⟩
    exact hpresent (by simp [hmax, falsy])
  rw [rejects_iff, Inconsistent, prices_rule h, coords_rule]
  exact iff_iff_excess hmissed

/-- a search around Accra with prices -/
theorem validate_rejects_consistent :
    Rejects (⟨some (28 / 5), some (-1 / 5), some 10, none, some 100, some 200, .distance⟩ : JobFilter ℚ) ↔
      Inconsistent (⟨some (28 / 5), some (-1 / 5), some 10, none, some 100, some 200, .distance⟩ : JobFilter ℚ) :=
  (validate_rejects_iff (by simp [FieldsOk])).2 ⟨by simp, by simp⟩

/-- on the zero meridian a search by distance is refused, and a maximum of 0 below the minimum is let through -/
theorem validate_misjudges_zero :
    (Rejects (⟨some (28 / 5), some 0, some 10, none, none, none, .distance⟩ : JobFilter ℚ) ∧
      ¬ Inconsistent (⟨some (28 / 5), some 0, some 10, none, none, none, .distance⟩ : JobFilter ℚ)) ∧
    ¬ Rejects (⟨none, none, none, none, some 100, some 0, .price⟩ : JobFilter ℚ) ∧
      Inconsistent (⟨none, none, none, none, some 100, some 0, .price⟩ : JobFilter ℚ) := by
  simp [rejects_iff, Inconsistent, falsy]

end JobFilterSerializer

end GigMarketplace
