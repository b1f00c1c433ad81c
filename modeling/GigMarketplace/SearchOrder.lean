/-
The order of get_available_jobs: the geo path against the plain path.

The plain path hands `sort_by` to the database. The geo path sorts in Python, by `created_at` whatever the key is, and
takes the reversed order exactly when `sort_by` does not start with a minus: oldest first for `-created_at`, newest
first for `created_at`. `InOrder` says of two rows that this is the order asked for nevertheless.

The two searches may read the rows in different orders; nothing is assumed of either.
-/
import GigMarketplace.GeoSearch

namespace GigMarketplace

open GigMarketplace.Core

section

variable {K : Type}

/-- the column `sort_by` names; `distance` falls back to the ordering of `Job.Meta` -/
def SortBy.key (s : SortBy) (j : Listing K) : ℤ :=
  match s with
  | .minusPrice => j.price
  | .price => j.price
  | _ => j.createdAt

/-- for rows that are read in this order: the geo path puts them in the order of `sort_by`, up to ties -/
def SortBy.InOrder (s : SortBy) (a b : Listing K) : Prop :=
  match s with
  | .minusCreatedAt => a.createdAt = b.createdAt
  | .createdAt => a.createdAt = b.createdAt
  | .minusPrice => (a.createdAt ≤ b.createdAt → b.price ≤ a.price) ∧ (b.createdAt < a.createdAt → a.price ≤ b.price)
  | .price => (b.createdAt ≤ a.createdAt → a.price ≤ b.price) ∧ (a.createdAt < b.createdAt → b.price ≤ a.price)
  | .distance => True

theorem orderBy_sorted {s : SortBy} (hs : s ≠ .distance) (qs : List (Listing K)) :
    (orderBy s qs).Pairwise (Ordered s.key s.startsWithMinus) := by
  cases s with
  | distance => exact absurd rfl hs
  | minusPrice => exact sorted_sortOn qs
  | price => exact sorted_sortOn qs
  | minusCreatedAt =>
    have hsorted : (sortOn Listing.createdAt true qs).Pairwise (Ordered Listing.createdAt true) := sorted_sortOn qs
    exact hsorted.imp fun h => Int.ofNat_le.2 h
  | createdAt =>
    have hsorted : (sortOn Listing.createdAt false qs).Pairwise (Ordered Listing.createdAt false) := sorted_sortOn qs
    exact hsorted.imp fun h => Int.ofNat_le.2 h

theorem perm_orderBy (s : SortBy) (qs : List (Listing K)) : (orderBy s qs).Perm qs := by
  cases s <;> exact perm_sortOn qs

/-- sorted by `created_at` in the geo path's direction, a pair is in the order asked for iff it is `InOrder` -/
theorem inOrder_iff {s : SortBy} (hs : s ≠ .distance) (a b : Listing K) :
    ((Ordered Listing.createdAt (!s.startsWithMinus) a b → Ordered s.key s.startsWithMinus a b) ∧
      (¬ Ordered Listing.createdAt (!s.startsWithMinus) a b → Ordered s.key s.startsWithMinus b a)) ↔ s.InOrder a b := by
  cases s with
  | distance => exact absurd rfl hs
  | minusPrice => simp [Ordered, SortBy.startsWithMinus, SortBy.value, SortBy.key, SortBy.InOrder]
  | price => simp [Ordered, SortBy.startsWithMinus, SortBy.value, SortBy.key, SortBy.InOrder]
  | minusCreatedAt =>
    simp [Ordered, SortBy.startsWithMinus, SortBy.value, SortBy.key, SortBy.InOrder]
    grind
  | createdAt =>
    simp [Ordered, SortBy.startsWithMinus, SortBy.value, SortBy.key, SortBy.InOrder]
    grind

end

section

variable {K : Type} [Field K] [LinearOrder K] {M : MathModule K} {dflt : ℤ} {rows rows' : List (Listing K)}
  {f : JobFilter K} {lat lon : K}

/-- up to ties the geo path returns what the plain path returns within the radius -/
def SortsAlike (M : MathModule K) (dflt : ℤ) (rows rows' : List (Listing K)) (f : JobFilter K) (lat lon : K) : Prop :=
  UpToTies f.sortBy.key
    ((JobDiscoveryService.getAvailableJobs M dflt rows { f with lat := some lat, lon := some lon }).map FoundJob.job)
    (((JobDiscoveryService.getAvailableJobs M dflt rows' { f with lat := none, lon := none }).map FoundJob.job).filter
      fun j => Listing.within M lat lon (f.searchRadius dflt) j)

/-- the geo path's result as a sorting of the rows it keeps -/
theorem jobs_of_around (hlat : f.lat = some lat) (hlon : f.lon = some lon) (hs : f.sortBy ≠ .distance) :
    (JobDiscoveryService.getAvailableJobs M dflt rows f).map FoundJob.job =
      sortOn Listing.createdAt (!f.sortBy.startsWithMinus)
        ((sortOn Listing.createdAt true
          ((filtered f rows).filter (boundingBox M lat lon (f.searchRadius dflt)).contains)).filter
            fun j => Listing.within M lat lon (f.searchRadius dflt) j) := by
  have hgeo : JobDiscoveryService.getAvailableJobs M dflt rows f =
      sortOn (fun j => j.job.createdAt) (!f.sortBy.startsWithMinus) (withDistance M lat lon (f.searchRadius dflt)
        (orderBy .minusCreatedAt
          ((filtered f rows).filter (boundingBox M lat lon (f.searchRadius dflt)).contains))) := by
    simp only [JobDiscoveryService.getAvailableJobs, hlat, hlon, if_neg hs]
    rfl
  rw [hgeo, withDistance_eq]
  refine (@map_sortOn _ _ _ Listing.createdAt _ _ FoundJob.job _).trans ?_
  rw [List.map_map]
  simp [orderBy, Function.comp_def]

theorem geo_sorted_iff (hlat : f.lat = some lat) (hlon : f.lon = some lon) (hs : f.sortBy ≠ .distance) :
    ((JobDiscoveryService.getAvailableJobs M dflt rows f).map FoundJob.job).Pairwise
        (Ordered f.sortBy.key f.sortBy.startsWithMinus) ↔
      (rows.filter fun j => f.Admits j ∧ (boundingBox M lat lon (f.searchRadius dflt)).contains j ∧
        Listing.within M lat lon (f.searchRadius dflt) j).Pairwise f.sortBy.InOrder := by
  rw [jobs_of_around hlat hlon hs, pairwise_resort_iff, filtered_eq]
  simp only [inOrder_iff hs, List.filter_filter]
  refine iff_of_eq (congrArg _ (List.filter_congr fun j _ => ?_))
  rw [Bool.eq_iff_iff]
  simp only [Bool.and_eq_true, decide_eq_true_eq]
  tauto

/-- the rows that the geo path keeps -/
def keptRows (M : MathModule K) (dflt : ℤ) (rows : List (Listing K)) (f : JobFilter K) (lat lon : K) :
    List (Listing K) :=
  rows.filter fun j => (f.Admits j ∧ j.within M lat lon (f.searchRadius dflt)) ∧
    (boundingBox M lat lon (f.searchRadius dflt)).contains j

/-- the matching rows within the radius -/
def nearRows (M : MathModule K) (dflt : ℤ) (rows : List (Listing K)) (f : JobFilter K) (lat lon : K) :
    List (Listing K) :=
  rows.filter fun j => f.Admits j ∧ j.within M lat lon (f.searchRadius dflt)

theorem keptRows_eq : keptRows M dflt rows f lat lon = rows.filter fun j => f.Admits j ∧
    (boundingBox M lat lon (f.searchRadius dflt)).contains j ∧ j.within M lat lon (f.searchRadius dflt) := by
  refine List.filter_congr fun j _ => ?_
  rw [decide_eq_decide]
  tauto

theorem perm_plain (hperm : rows.Perm rows') :
    ((orderBy f.sortBy (filtered f rows')).filter fun j => j.within M lat lon (f.searchRadius dflt)).Perm
      (nearRows M dflt rows f lat lon) := by
  refine ((perm_orderBy f.sortBy _).filter _).trans ?_
  rw [filtered_eq, List.filter_filter]
  refine (hperm.symm.filter _).trans (.of_eq (List.filter_congr fun j _ => ?_))
  rw [Bool.eq_iff_iff]
  simp only [Bool.and_eq_true, decide_eq_true_eq]
  tauto

theorem sortsAlike_iff_kept (hperm : rows.Perm rows') (hs : f.sortBy ≠ .distance) :
    SortsAlike M dflt rows rows' f lat lon ↔
      (keptRows M dflt rows f lat lon).Perm (nearRows M dflt rows f lat lon) ∧
        (keptRows M dflt rows f lat lon).Pairwise f.sortBy.InOrder := by
  have hplain := (orderBy_sorted hs (filtered f rows')).filter fun j => j.within M lat lon (f.searchRadius dflt)
  have hjobs : (JobDiscoveryService.getAvailableJobs M dflt rows' { f with lat := none, lon := none }).map FoundJob.job =
      orderBy f.sortBy (filtered f rows') := jobs_of_anywhere rfl
  have hkept : ((JobDiscoveryService.getAvailableJobs M dflt rows
      { f with lat := some lat, lon := some lon }).map FoundJob.job).Perm (keptRows M dflt rows f lat lon) := by
    rw [keptRows_eq]
    exact perm_jobs_of_around rfl rfl
  have hnear := @perm_plain K _ _ M dflt rows rows' f lat lon hperm
  have hsorted := @geo_sorted_iff K _ _ M dflt rows { f with lat := some lat, lon := some lon } lat lon rfl rfl hs
  rw [SortsAlike, hjobs, upToTies_iff hplain]
  refine and_congr ⟨fun h => hkept.symm.trans (h.trans hnear), fun h => hkept.trans (h.trans hnear.symm)⟩ ?_
  rw [keptRows_eq]
  exact hsorted

/-- the two paths agree iff the box drops no row within the radius and those rows are pairwise in the order asked for -/
theorem sorts_alike_iff (hperm : rows.Perm rows') (hs : f.sortBy ≠ .distance) (lat lon : K) :
    SortsAlike M dflt rows rows' f lat lon ↔
      (∀ j ∈ rows, f.Admits j → j.within M lat lon (f.searchRadius dflt) →
        (boundingBox M lat lon (f.searchRadius dflt)).contains j) ∧
      (rows.filter fun j => f.Admits j ∧ j.within M lat lon (f.searchRadius dflt)).Pairwise f.sortBy.InOrder := by
  have hbox : (keptRows M dflt rows f lat lon).Perm (nearRows M dflt rows f lat lon) ↔
      ∀ j ∈ rows, f.Admits j → j.within M lat lon (f.searchRadius dflt) →
        (boundingBox M lat lon (f.searchRadius dflt)).contains j :=
    filter_and_perm_iff.trans (forall₂_congr fun _ _ => and_imp)
  rw [sortsAlike_iff_kept hperm hs, hbox]
  refine and_congr_right fun hall => ?_
  have hsame : keptRows M dflt rows f lat lon = nearRows M dflt rows f lat lon := by
    refine List.filter_congr fun j hj => ?_
    rw [decide_eq_decide]
    exact ⟨fun h => h.1, fun h => ⟨h, hall j hj h.1 h.2⟩⟩
  rw [hsame]
  rfl

end

/-! ## Two jobs at the centre -/

def jobAtOrigin (id : Pk) (createdAt : Time) : Listing ℝ := ⟨id, "cleaning", 100000, 0, 0, .created, createdAt⟩

def newestNearby : JobFilter ℝ := ⟨none, none, some 5, none, none, none, .minusCreatedAt⟩

theorem searchRadius_nearby : newestNearby.searchRadius 50 = 5 := if_neg (by norm_num [newestNearby])

theorem jobAtOrigin_near (round : ℝ → ℝ) (id : Pk) (createdAt : Time) :
    (newestNearby.Admits (jobAtOrigin id createdAt) ∧
        (jobAtOrigin id createdAt).within (realMath round) 0 0 (newestNearby.searchRadius 50)) ∧
      (boundingBox (realMath round) 0 0 (newestNearby.searchRadius 50)).contains (jobAtOrigin id createdAt) := by
  have harea : Searchable 0 0 5 := searchable_equator 0 (by norm_num)
  have hlat : -90 ≤ (jobAtOrigin id createdAt).latitude ∧ (jobAtOrigin id createdAt).latitude ≤ 90 := by
    norm_num [jobAtOrigin]
  have hnear : (jobAtOrigin id createdAt).within (realMath round) 0 0 5 := by
    rw [within_iff harea hlat]
    simp [jobAtOrigin, rad, Sphere.cosAngle, Real.cos_le_one]
  rw [searchRadius_nearby]
  refine ⟨⟨⟨rfl, by simp [newestNearby], by simp [newestNearby], by simp [newestNearby]⟩, hnear⟩, ?_⟩
  rw [contains_iff harea hlat hnear]
  norm_num [jobAtOrigin, lonDelta, rad]

/-- jobs of the same moment agree, also when the engine reads them the other way round -/
theorem sorts_alike_same_moment :
    SortsAlike (realMath id) 50 [jobAtOrigin 1 0, jobAtOrigin 2 0] [jobAtOrigin 2 0, jobAtOrigin 1 0] newestNearby
      0 0 := by
  refine (sorts_alike_iff (.swap _ _ _) (by decide) 0 0).2 ⟨?_, ?_⟩
  · rw [List.forall_mem_cons, List.forall_mem_singleton]
    exact ⟨fun _ _ => (jobAtOrigin_near _ 1 0).2, fun _ _ => (jobAtOrigin_near _ 2 0).2⟩
  · refine List.Pairwise.filter _ (List.pairwise_pair.2 ?_)
    rfl

/-- asked for the newest first, the geo path puts the older job first -/
theorem sorts_alike_fails :
    ¬ SortsAlike (realMath id) 50 [jobAtOrigin 1 0, jobAtOrigin 2 1] [jobAtOrigin 1 0, jobAtOrigin 2 1] newestNearby
      0 0 := by
  rw [sortsAlike_iff_kept (.refl _) (by decide)]
  rintro ⟨-, hpair⟩
  have hkept : keptRows (realMath id) 50 [jobAtOrigin 1 0, jobAtOrigin 2 1] newestNearby 0 0 =
      [jobAtOrigin 1 0, jobAtOrigin 2 1] := by
    rw [keptRows, List.filter_eq_self, List.forall_mem_cons, List.forall_mem_singleton]
    exact ⟨decide_eq_true (jobAtOrigin_near id 1 0), decide_eq_true (jobAtOrigin_near id 2 1)⟩
  rw [hkept, List.pairwise_pair] at hpair
  exact absurd (show (0 : ℕ) = 1 from hpair) (by decide)

end GigMarketplace
