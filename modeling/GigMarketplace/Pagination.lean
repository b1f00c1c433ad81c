/-
`apps/core/pagination.py`: StandardResultsPagination with what it inherits of PageNumberPagination, and GET /jobs/ page
by page.

Each page is a request of its own, so its query may return rows with equal sort keys in another order than the query of
the page before. `reads` gives the order in which the engine reads the rows for each page; nothing is assumed of it but
that the rows are the same. A page is asked for by its number, which the parser has turned into an integer.

Results:
- `browse_paginate`: what a client has when it has asked for every page;
- `job_pages_complete_iff`: the pages of GET /jobs/ hold every matching job once, whatever the engine does with ties,
  iff no group of jobs with one sort key lies on two pages.
-/
import GigMarketplace.Core.Paging
import GigMarketplace.SearchOrder

namespace GigMarketplace

open GigMarketplace.Core

/-! ## The paginator -/

structure PageSettings where
  /-- REST_FRAMEWORK["PAGE_SIZE"] -/
  pageSize : ℕ
  maxPageSize : ℕ
  positive : 0 < pageSize ∧ 0 < maxPageSize

/-- the query parameters -/
structure PageQuery where
  /-- 1 where it is absent -/
  page : ℤ
  /-- none: it is absent, or no integer -/
  pageSize : Option ℤ
deriving DecidableEq, Repr

/-- the data of get_paginated_response; `next` and `previous` are the page numbers in the links -/
structure Page (α : Type) where
  count : ℕ
  totalPages : ℕ
  currentPage : ℕ
  next : Option ℕ
  previous : Option ℕ
  results : List α
deriving DecidableEq, Repr

namespace StandardResultsPagination

/-- `page_size` of the query if it is a positive number, cut off at the maximum -/
def getPageSize (P : PageSettings) (requested : Option ℤ) : ℕ :=
  match requested with
  | some n => if 0 < n then min n.toNat P.maxPageSize else P.pageSize
  | none => P.pageSize

/-- `paginate_queryset` and `get_paginated_response`; a page that is not there is DRF's NotFound -/
def paginate {α : Type} (P : PageSettings) (q : PageQuery) (queryset : List α) : Except Exc (Page α) :=
  let size := getPageSize P q.pageSize
  let total := numPages size queryset.length
  if q.page < 1 ∨ total < q.page then .error (.notFound "Invalid page.")
  else
    let number := q.page.toNat
    .ok {
      count := queryset.length
      totalPages := total
      currentPage := number
      next := if number < total then some (number + 1) else none
      previous := if 1 < number then some (number - 1) else none
      results := slice size (number - 1) queryset }

theorem getPageSize_pos (P : PageSettings) (requested : Option ℤ) : 0 < getPageSize P requested := by
  unfold getPageSize
  split
  · split_ifs with hpos
    · exact lt_min (by omega) P.positive.2
    · exact P.positive.1
  · exact P.positive.1

end StandardResultsPagination

open StandardResultsPagination

/-- the pages 1 to `total`, one request after another -/
def browse {α : Type} (answer : ℕ → Except Exc (Page α)) (total : ℕ) : Except Exc (List α) := do
  let pages ← (List.range total).mapM fun n => answer (n + 1)
  return pages.flatMap Page.results

/-- page 1 and then all the others, as many as page 1 says, have been answered, with these results -/
def Answered {α : Type} (answer : ℕ → Except Exc (Page α)) (found : List α) : Prop :=
  ∃ first, answer 1 = .ok first ∧ browse answer first.totalPages = .ok found

section Browse

variable {α : Type} {P : PageSettings} {pageSize : Option ℤ} {reading : ℕ → List α} {count : ℕ}

theorem mapM_ok {β γ : Type} {f : β → Except Exc γ} {g : β → γ} {l : List β} (h : ∀ b ∈ l, f b = .ok (g b)) :
    l.mapM f = .ok (l.map g) := by
  induction l with
  | nil => rfl
  | cons b l ih =>
    rw [List.mapM_cons, h b List.mem_cons_self, ih fun c hc => h c (List.mem_cons_of_mem _ hc)]
    rfl

/-- a page that is there -/
theorem paginate_ok {n : ℕ} {queryset : List α} (hn : n < numPages (getPageSize P pageSize) queryset.length) :
    ∃ page : Page α, paginate P ⟨(n + 1 : ℕ), pageSize⟩ queryset = .ok page ∧
      page.totalPages = numPages (getPageSize P pageSize) queryset.length ∧
      page.results = slice (getPageSize P pageSize) n queryset := by
  unfold paginate
  dsimp only
  rw [if_neg (by omega)]
  exact ⟨_, rfl, rfl, by simp⟩

/-- **Every page asked for**: the slices of the readings, one after another. -/
theorem browse_paginate (P : PageSettings) (pageSize : Option ℤ) (hcount : ∀ n, (reading n).length = count) :
    browse (fun n => paginate P ⟨n, pageSize⟩ (reading n)) (numPages (getPageSize P pageSize) count) =
      .ok ((List.range (numPages (getPageSize P pageSize) count)).flatMap fun n =>
        slice (getPageSize P pageSize) n (reading (n + 1))) := by
  have hpage : ∀ n, ∃ page : Page α, n < numPages (getPageSize P pageSize) count →
      paginate P ⟨(n + 1 : ℕ), pageSize⟩ (reading (n + 1)) = .ok page ∧
        page.results = slice (getPageSize P pageSize) n (reading (n + 1)) := by
    intro n
    by_cases hn : n < numPages (getPageSize P pageSize) count
    · rw [← hcount (n + 1)] at hn
      obtain ⟨page, hok, -, hresults⟩ := paginate_ok hn
      exact ⟨page, fun _ => ⟨hok, hresults⟩⟩
    · exact ⟨⟨0, 0, 0, none, none, []⟩, fun h => absurd h hn⟩
  choose page hpages using hpage
  unfold browse
  rw [mapM_ok (g := page) fun n hn => (hpages n (List.mem_range.1 hn)).1]
  change Except.ok _ = _
  rw [List.flatMap_map]
  congr 1
  exact List.flatMap_congr fun n hn => (hpages n (List.mem_range.1 hn)).2

theorem answered_iff (P : PageSettings) (pageSize : Option ℤ) (hcount : ∀ n, (reading n).length = count)
    (found : List α) :
    Answered (fun n => paginate P ⟨n, pageSize⟩ (reading n)) found ↔
      found = (List.range (numPages (getPageSize P pageSize) count)).flatMap fun n =>
        slice (getPageSize P pageSize) n (reading (n + 1)) := by
  have hone : 0 < numPages (getPageSize P pageSize) (reading 1).length := by
    rw [lt_numPages_iff (getPageSize_pos P pageSize)]
    omega
  obtain ⟨first, hfirst, htotal, -⟩ := paginate_ok hone
  rw [hcount] at htotal
  have hall := browse_paginate P pageSize hcount
  constructor
  · rintro ⟨first', hfirst', hfound⟩
    cases hfirst.symm.trans hfirst'
    rw [htotal] at hfound
    cases hall.symm.trans hfound
    rfl
  · rintro rfl
    exact ⟨first, hfirst, by rw [htotal]; exact hall⟩

end Browse

/-! ## GET /jobs/ -/

instance {K : Type} : Keyed (Listing K) Pk := ⟨Listing.id, fun j k => { j with id := k }, fun _ _ => rfl, fun _ => rfl⟩

section Jobs

variable {K : Type} [Field K] [LinearOrder K] {M : MathModule K} {dflt : ℤ} {P : PageSettings} {pageSize : Option ℤ}
  {f : JobFilter K}

/-- `rows` in the order in which the engine reads them for this request; `f` is what JobFilterSerializer let through -/
def JobViewSet.list (M : MathModule K) (defaultSearchRadiusKm : ℤ) (P : PageSettings) (rows : List (Listing K))
    (f : JobFilter K) (q : PageQuery) : Except Exc (Page (FoundJob K)) :=
  paginate P q (JobDiscoveryService.getAvailableJobs M defaultSearchRadiusKm rows f)

/-- the jobs that match the filters -/
def JobFilter.matching (f : JobFilter K) (jobs : Table (Listing K)) : List (Listing K) :=
  jobs.rows.filter fun j => f.Admits j

/-- the pages 1 to total_pages are answered, and together they hold every matching job exactly once -/
def PagesComplete (M : MathModule K) (dflt : ℤ) (P : PageSettings) (jobs : Table (Listing K)) (f : JobFilter K)
    (pageSize : Option ℤ) (reads : ℕ → List (Listing K)) : Prop :=
  ∃ found, Answered (fun n => JobViewSet.list M dflt P (reads n) f ⟨n, pageSize⟩) found ∧
    (found.map FoundJob.job).Perm (f.matching jobs)

omit [Field K] [LinearOrder K] in
theorem orderBy_of_sorted {s : SortBy} (hs : s ≠ .distance) {l : List (Listing K)}
    (hl : l.Pairwise (Ordered s.key s.startsWithMinus)) : orderBy s l = l := by
  cases s with
  | distance => exact absurd rfl hs
  | minusPrice => exact sortOn_of_sorted hl
  | price => exact sortOn_of_sorted hl
  | minusCreatedAt =>
    have hmoments : l.Pairwise (Ordered Listing.createdAt true) := hl.imp fun h => Int.ofNat_le.1 h
    exact sortOn_of_sorted hmoments
  | createdAt =>
    have hmoments : l.Pairwise (Ordered Listing.createdAt false) := hl.imp fun h => Int.ofNat_le.1 h
    exact sortOn_of_sorted hmoments

theorem found_anywhere (hf : f.lat = none ∨ f.lon = none) (rows : List (Listing K)) :
    JobDiscoveryService.getAvailableJobs M dflt rows f =
      (orderBy f.sortBy (filtered f rows)).map fun j => ⟨j, none⟩ := by
  unfold JobDiscoveryService.getAvailableJobs
  dsimp only
  split
  · rename_i lat lon hlat hlon
    rcases hf with h | h
    · rw [hlat] at h
      cases h
    · rw [hlon] at h
      cases h
  · rfl

omit [Field K] [LinearOrder K] in
/-- what a query returns is a reading of the matching jobs -/
theorem reading_orderBy (hs : f.sortBy ≠ .distance) {jobs : Table (Listing K)} {rows : List (Listing K)}
    (hrows : rows.Perm jobs.rows) :
    Reading f.sortBy.key f.sortBy.startsWithMinus (f.matching jobs) (orderBy f.sortBy (filtered f rows)) := by
  refine ⟨(perm_orderBy _ _).trans ?_, orderBy_sorted hs _⟩
  rw [filtered_eq]
  exact hrows.filter _

omit [Field K] [LinearOrder K] in
/-- every reading is what some query returns -/
theorem exists_rows (hs : f.sortBy ≠ .distance) {jobs : Table (Listing K)} {l : List (Listing K)}
    (hl : Reading f.sortBy.key f.sortBy.startsWithMinus (f.matching jobs) l) :
    ∃ rows : List (Listing K), rows.Perm jobs.rows ∧ orderBy f.sortBy (filtered f rows) = l := by
  obtain ⟨rows, hperm, hrows⟩ := exists_filter_eq hl.1
  refine ⟨rows, hperm, ?_⟩
  rw [filtered_eq, hrows]
  exact orderBy_of_sorted hs hl.2

/-- what the pages together hold -/
theorem pagesComplete_iff (hf : f.lat = none ∨ f.lon = none) {jobs : Table (Listing K)} {reads : ℕ → List (Listing K)}
    (hreads : ∀ n, (reads n).Perm jobs.rows) :
    PagesComplete M dflt P jobs f pageSize reads ↔
      ((List.range (numPages (getPageSize P pageSize) (f.matching jobs).length)).flatMap fun n =>
        slice (getPageSize P pageSize) n (orderBy f.sortBy (filtered f (reads (n + 1))))).Perm (f.matching jobs) := by
  have hcount : ∀ n, (JobDiscoveryService.getAvailableJobs M dflt (reads n) f).length = (f.matching jobs).length := by
    intro n
    rw [found_anywhere hf, List.length_map, (perm_orderBy _ _).length_eq, filtered_eq]
    exact ((hreads n).filter _).length_eq
  have hjobs : ∀ n, (slice (getPageSize P pageSize) n
      (JobDiscoveryService.getAvailableJobs M dflt (reads (n + 1)) f)).map FoundJob.job =
        slice (getPageSize P pageSize) n (orderBy f.sortBy (filtered f (reads (n + 1)))) := by
    intro n
    rw [found_anywhere hf, slice, List.map_take, List.map_drop, List.map_map]
    simp [slice, Function.comp_def]
  have hanswered := answered_iff P pageSize hcount
  have hfound : PagesComplete M dflt P jobs f pageSize reads ↔
      (((List.range (numPages (getPageSize P pageSize) (f.matching jobs).length)).flatMap fun n =>
        slice (getPageSize P pageSize) n (JobDiscoveryService.getAvailableJobs M dflt (reads (n + 1)) f)).map
          FoundJob.job).Perm (f.matching jobs) := by
    constructor
    · rintro ⟨found, hfound, hperm⟩
      rw [(hanswered found).1 hfound] at hperm
      exact hperm
    · exact fun hperm => ⟨_, (hanswered _).2 rfl, hperm⟩
  rw [hfound, List.map_flatMap]
  simp only [hjobs]

/-- **Paging loses and repeats nothing**, whatever the engine does with ties: exactly if all jobs with one sort key are
on one page. -/
theorem job_pages_complete_iff (M : MathModule K) (dflt : ℤ) (P : PageSettings) (jobs : Table (Listing K))
    (hf : f.lat = none ∨ f.lon = none) (hs : f.sortBy ≠ .distance) (pageSize : Option ℤ) :
    (∀ reads : ℕ → List (Listing K), (∀ n, (reads n).Perm jobs.rows) →
      PagesComplete M dflt P jobs f pageSize reads) ↔
      UnsplitTies f.sortBy.key f.sortBy.startsWithMinus (getPageSize P pageSize) (f.matching jobs) := by
  have hnodup : (f.matching jobs).Nodup := (List.Nodup.of_map pk jobs.nodup).filter _
  have hquery := query_pages_iff (getPageSize_pos P pageSize) hnodup (fun _ hperm => reading_orderBy hs hperm)
    fun _ hl => exists_rows hs hl
  rw [← hquery]
  exact forall₂_congr fun reads hreads => pagesComplete_iff hf hreads

end Jobs

/-! ## Two jobs of one price -/

def roundMath : MathModule ℚ := ⟨id, id, id, id, fun y _ => y, id⟩

def jobOfPrice (id : Pk) (price : ℤ) : Listing ℚ := ⟨id, "cleaning", price, 41, 69, .created, 0⟩

def cheapestFirst : JobFilter ℚ := ⟨none, none, none, none, none, none, .price⟩

def twentyAPage : PageSettings := ⟨20, 100, by decide⟩

/-- the engine reads the two rows the other way round for the second page -/
def turnedForPageTwo (j k : Listing ℚ) (n : ℕ) : List (Listing ℚ) := if n = 2 then [k, j] else [j, k]

theorem turned_perm (j k : Listing ℚ) (n : ℕ) : (turnedForPageTwo j k n).Perm [j, k] := by
  unfold turnedForPageTwo
  split_ifs
  · exact .swap _ _ _
  · exact .refl _

/-- with two prices nothing is lost -/
theorem job_pages_complete_demo :
    PagesComplete roundMath 10 twentyAPage ⟨[jobOfPrice 1 500, jobOfPrice 2 900], by decide⟩ cheapestFirst (some 1)
      (turnedForPageTwo (jobOfPrice 1 500) (jobOfPrice 2 900)) :=
  (job_pages_complete_iff roundMath 10 twentyAPage ⟨[jobOfPrice 1 500, jobOfPrice 2 900], by decide⟩ (.inl rfl)
    (by decide) (some 1)).2 (by unfold UnsplitTies; decide +kernel) _ (turned_perm _ _)

/-- with one price and one job a page, both pages show the first job -/
theorem job_pages_lose_tie :
    (∀ n, (turnedForPageTwo (jobOfPrice 1 500) (jobOfPrice 2 500) n).Perm [jobOfPrice 1 500, jobOfPrice 2 500]) ∧
      ¬ PagesComplete roundMath 10 twentyAPage ⟨[jobOfPrice 1 500, jobOfPrice 2 500], by decide⟩ cheapestFirst
        (some 1) (turnedForPageTwo (jobOfPrice 1 500) (jobOfPrice 2 500)) := by
  refine ⟨turned_perm _ _, ?_⟩
  rw [pagesComplete_iff (.inl rfl) (turned_perm _ _)]
  decide +kernel

end GigMarketplace
