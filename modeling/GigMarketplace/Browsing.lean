/-
`GET /jobs/`, page by page, while jobs are posted, accepted and cancelled.

The list of available jobs loses a job when it is accepted, and those behind it come one place further in front. A
client that asks for page after page can miss one of them so: the job that comes onto the page shown last.

Results:
- `available_sorted`: the order of a search, whichever path it takes;
- `gone_of_not_available`: a search finds a job as long as nobody takes it;
- `available_shown_or_overtaken`: a client misses a job only if one in front of it is taken between two pages.
-/
import GigMarketplace.MyJobs

namespace GigMarketplace

open GigMarketplace.Core

/-! ## The order of a search -/

/-- a search around a place -/
def JobFilter.around (f : JobFilter ℚ) : Bool := f.lat.isSome ∧ f.lon.isSome

/-- what a search sorts by: around a place, the distance or the time whatever `sort_by` names -/
def JobFilter.sortKey (f : JobFilter ℚ) (x : FoundJob ℚ) : ℚ :=
  if f.around then if f.sortBy = .distance then x.distanceKm.getD 0 else (x.job.createdAt : ℚ)
  else (f.sortBy.key x.job : ℚ)

def JobFilter.sortReverse (f : JobFilter ℚ) : Bool :=
  if f.around then f.sortBy ≠ .distance ∧ f.sortBy.startsWithMinus = false
  else f.sortBy = .distance ∨ f.sortBy.startsWithMinus = true

section Search

variable {M : MathModule ℚ} {dflt : ℤ} {rows : List (Listing ℚ)} {f : JobFilter ℚ} {x : FoundJob ℚ}

theorem around_cases (f : JobFilter ℚ) :
    (∃ lat lon, f.lat = some lat ∧ f.lon = some lon ∧ f.around = true) ∨
      ((f.lat = none ∨ f.lon = none) ∧ f.around = false) := by
  unfold JobFilter.around
  cases f.lat with
  | none => exact Or.inr ⟨Or.inl rfl, by simp⟩
  | some lat =>
    cases f.lon with
    | none => exact Or.inr ⟨Or.inr rfl, by simp⟩
    | some lon => exact Or.inl ⟨lat, lon, rfl, rfl, by simp⟩

/-- the order of the query, without a place -/
theorem orderBy_ordered (s : SortBy) (qs : List (Listing ℚ)) :
    (orderBy s qs).Pairwise (Ordered s.key (s = .distance ∨ s.startsWithMinus = true)) := by
  by_cases hs : s = .distance
  · subst hs
    have hsorted : (sortOn Listing.createdAt true qs).Pairwise (Ordered Listing.createdAt true) := sorted_sortOn qs
    exact hsorted.imp fun h => Int.ofNat_le.2 h
  · have hreverse : decide (s = .distance ∨ s.startsWithMinus = true) = s.startsWithMinus := by simp [hs]
    rw [hreverse]
    exact orderBy_sorted hs qs

theorem search_sorted :
    (JobDiscoveryService.getAvailableJobs M dflt rows f).Pairwise (Ordered f.sortKey f.sortReverse) := by
  rcases around_cases f with ⟨lat, lon, hlat, hlon, haround⟩ | ⟨hf, haround⟩
  · simp only [JobDiscoveryService.getAvailableJobs, hlat, hlon]
    split_ifs with hdistance
    · refine (sorted_sortOn _).imp fun {a b} h => ?_
      simpa [Ordered, JobFilter.sortKey, JobFilter.sortReverse, haround, hdistance] using h
    · refine (sorted_sortOn _).imp fun {a b} h => ?_
      simpa [Ordered, JobFilter.sortKey, JobFilter.sortReverse, haround, hdistance] using h
  · rw [found_anywhere hf, List.pairwise_map]
    refine (orderBy_ordered _ _).imp fun {a b} h => ?_
    simpa [Ordered, JobFilter.sortKey, JobFilter.sortReverse, haround] using h

/-- **Row by row**: whether a search finds a job depends on the job's row. -/
theorem mem_search : x ∈ JobDiscoveryService.getAvailableJobs M dflt rows f ↔
    ∃ row ∈ rows, x ∈ JobDiscoveryService.getAvailableJobs M dflt [row] f := by
  have horder : ∀ (s : SortBy) (qs : List (Listing ℚ)) (j : Listing ℚ), j ∈ orderBy s qs ↔ j ∈ qs :=
    fun s qs j => (perm_orderBy s qs).mem_iff
  rcases around_cases f with ⟨lat, lon, hlat, hlon, -⟩ | ⟨hf, -⟩
  · simp only [JobDiscoveryService.getAvailableJobs, hlat, hlon]
    split_ifs <;> simp [withDistance, horder, filtered_eq, and_assoc]
  · simp [found_anywhere hf, horder, filtered_eq, and_assoc]

theorem row_of_search {row : Listing ℚ} (h : x ∈ JobDiscoveryService.getAvailableJobs M dflt [row] f) :
    x.job = row ∧ row.status = .created := by
  rcases around_cases f with ⟨lat, lon, hlat, hlon, -⟩ | ⟨hf, -⟩
  · obtain ⟨hrow, hadmits, -⟩ := (mem_jobs_of_around hlat hlon).1 (List.mem_map_of_mem h)
    have heq : x.job = row := List.mem_singleton.1 hrow
    rw [heq] at hadmits
    exact ⟨heq, hadmits.1⟩
  · rw [found_anywhere hf, filtered_eq] at h
    obtain ⟨j, hj, rfl⟩ := List.mem_map.1 h
    obtain ⟨hrow, hadmits⟩ := List.mem_filter.1 ((perm_orderBy _ _).mem_iff.1 hj)
    have heq : j = row := List.mem_singleton.1 hrow
    rw [heq] at hadmits ⊢
    exact ⟨rfl, (of_decide_eq_true hadmits).1⟩

end Search

section Available

variable {S : SearchEnv} {f : JobFilter ℚ} {s s' : Site} {x : FoundJob ℚ}

theorem available_sorted : (available S f s).Pairwise (Ordered f.sortKey f.sortReverse) := search_sorted

/-- nothing of the row changes but what says who has taken it -/
theorem Job.Stays.listing {j j' : Job} (h : j.Stays j') (hid : j'.id = j.id) (hstatus : j'.status = j.status)
    (slug : Pk → String) : j'.listing slug = j.listing slug := by
  unfold Job.listing
  rw [hid, h.category, h.price, h.latitude, h.longitude, hstatus, h.createdAt]

/-- **Gone** from the list is a job that somebody has taken. -/
theorem gone_of_not_available (hkept : Kept s s') (h : x ∈ available S f s) (hgone : x ∉ available S f s') :
    ∃ j, s'.db.jobs.find x.job.id = some j ∧ j.status ≠ .created := by
  obtain ⟨row, hrow, hfound⟩ := mem_search.1 h
  obtain ⟨j, hj, rfl⟩ := List.mem_map.1 hrow
  obtain ⟨hjob, hstatus⟩ := row_of_search hfound
  obtain ⟨j', hfind, hstays⟩ := hkept.jobs _ j (Table.find_of_mem hj)
  have hid : j'.id = j.id := Table.pk_of_find hfind
  rw [hjob]
  refine ⟨j', hfind, fun hcreated => hgone (mem_search.2 ⟨j'.listing S.slug, ?_, ?_⟩)⟩
  · exact List.mem_map_of_mem (Table.mem_of_find hfind)
  · have hsame : j'.status = j.status := hcreated.trans hstatus.symm
    rwa [hstays.listing hid hsame]

end Available

/-- **Missed only where a job is taken.** While any other requests run, a client asks for page after page of the
available jobs until there is no next one, with any filters and order, around a place or not. A job that is available
each time a page is read is shown, or stands beyond the last COUNT, or a job that stood in front of it when one page was
read had been accepted or cancelled when the next one was; where the jobs to be found differ in what they are sorted
by. -/
theorem available_shown_or_overtaken (X : AuthEnv) (accounts : Table Account) (hphones : DistinctPhones accounts)
    (otp : OtpSite) (evs : List AuthEvent) (hseq : SequenceOnce otp evs) (user : Pk) (f : JobFilter ℚ)
    (pageSize : Option ℤ) {last : ℕ} {entries : ℕ → AuthEntry} {pages : ℕ → Page (FoundJob ℚ)}
    (hcalls : PageCalls (authRun X accounts otp evs).trace (fun n => .market (.list user f ⟨n, pageSize⟩))
      (fun page => .market (.found page)) last entries pages)
    (hties : ∀ n ≤ last, ((available X.search f (entries n).after.site).map f.sortKey).Nodup) {x : FoundJob ℚ}
    (hx : ∀ n ≤ last, x ∈ available X.search f (entries n).after.site) :
    (∃ n ≤ last, x ∈ (pages n).results) ∨
      x ∈ (available X.search f (entries last).after.site).drop (pages last).count ∨
      ∃ n < last, ∃ b j, [b, x].Sublist (available X.search f (entries n).after.site) ∧
        (entries (n + 1)).after.site.db.jobs.find b.job.id = some j ∧ j.status ≠ .created := by
  obtain ⟨hlaw, hassured, hordered⟩ := auth_run (X := X) hphones hseq
  have hreturned : ∀ e ∈ (authRun X accounts otp evs).trace, ∀ n page,
      e.op = .market (.list user f ⟨n, pageSize⟩) → e.result = some (.ok (.market (.found page))) →
      Paged X.pages ⟨n, pageSize⟩ (fun t : AuthSite => available X.search f t.site)
        (fun t t' => Kept t.site t'.site) e.origin page e.after := by
    intro e he n page hop hresult
    have hanswer := (hassured e he).2.2 _ hresult
    rw [hop] at hanswer
    obtain ⟨s₁, hfirst, hlast, hvalid, hpage⟩ := hanswer
    exact ⟨sitePart.set s₁ e.after, hfirst.kept, hlast.kept, hvalid, hpage⟩
  rcases read_or_overtaken hcalls hreturned (fun _ => available_sorted) hties hx with
    hshown | hbeyond | ⟨n, hn, b, hbefore, hgone⟩
  · exact Or.inl hshown
  · exact Or.inr (Or.inl hbeyond)
  · right; right
    have hkept : Kept (entries n).after.site (entries (n + 1)).after.site := by
      have hmem := hcalls.mem (n + 1) (by omega)
      have hbegan := hordered.began _ (hcalls.mem n hn.le) _ hmem (hcalls.following n hn)
      exact (hbegan.site.trans (hordered.own _ hmem).site).trans (hassured _ hmem).2.1.grows.site
    have hb : b ∈ available X.search f (entries n).after.site := hbefore.subset List.mem_cons_self
    obtain ⟨j, hfind, htaken⟩ := gone_of_not_available hkept hb hgone
    exact ⟨n, hn, b, j, hbefore, hfind, htaken⟩

/-! ## A job that is missed -/

def newestFirst : JobFilter ℚ := ⟨none, none, none, none, none, none, .minusCreatedAt⟩

def accepting (pk : String) (now : Time) : MarketRequest := .job ⟨2, .accept pk, now, rfl⟩

/-- three jobs are posted; the worker asks for the first page of one job, accepts the job, and asks for the second -/
def demoBrowsing : List AuthEvent :=
  [MarketRequest.deposit ⟨1, .obj [("amount", .int 500000), ("provider", .str "click")], 1, ""⟩,
    .callback (.click (.obj demoCallback)), posting 3 10, posting 2 20, posting 1 30].flatMap served ++
  browsing 1 ++ served (accepting "1" 40) ++ browsing 2
where
  browsing (n : ℤ) : List AuthEvent := [.start 0 (.market (.list 2 newestFirst ⟨n, some 1⟩)), .step 0, .step 0]

theorem demoBrowsing_length : (authRun demoAuth demoAccounts demoUnsent demoBrowsing).trace.length = 17 := by
  decide +kernel

def demoBrowsed (n : ℕ) : AuthEntry :=
  (authRun demoAuth demoAccounts demoUnsent demoBrowsing).trace.get
    ⟨[11, 16].getD n 16, by
      rw [demoBrowsing_length]
      match n with
      | 0 => decide
      | 1 => decide
      | _ + 2 => exact Nat.lt_succ_self 16⟩

def demoFound (id : Pk) (now : Time) : FoundJob ℚ := ⟨(demoPostedJob id now).listing demoSearch.slug, none⟩

def demoFoundPages : ℕ → Page (FoundJob ℚ)
  | 0 => ⟨3, 3, 1, some 2, none, [demoFound 1 30]⟩
  | _ => ⟨2, 2, 2, none, some 1, [demoFound 3 10]⟩

def foundPage (e : AuthEntry) : Option (Page (FoundJob ℚ)) :=
  match e.result with
  | some (.ok (.market (.found page))) => some page
  | _ => none

theorem foundPage_some {e : AuthEntry} {page : Page (FoundJob ℚ)} (h : foundPage e = some page) :
    e.result = some (.ok (.market (.found page))) := by
  unfold foundPage at h
  split at h
  · rename_i page' hresult
    cases h
    exact hresult
  · cases h

theorem demoBrowsed_calls : PageCalls (authRun demoAuth demoAccounts demoUnsent demoBrowsing).trace
    (fun n => .market (.list 2 newestFirst ⟨n, some 1⟩)) (fun page => .market (.found page)) 1 demoBrowsed
    demoFoundPages := by
  refine ⟨fun n _ => List.get_mem _ _, ?_, ?_, ?_, ?_⟩
  · intro n hn
    interval_cases n <;> rfl
  · intro n hn
    apply foundPage_some
    interval_cases n <;> decide +kernel
  · intro n hn
    interval_cases n
    decide +kernel
  · intro n hn
    interval_cases n <;> decide

/-- the second job is on neither page: the newest one stood in front of it, and was accepted -/
theorem available_shown_or_overtaken_demo :
    ∃ b j, [b, demoFound 2 20].Sublist (available demoSearch newestFirst (demoBrowsed 0).after.site) ∧
      (demoBrowsed 1).after.site.db.jobs.find b.job.id = some j ∧ j.status ≠ .created := by
  rcases available_shown_or_overtaken demoAuth demoAccounts (by unfold DistinctPhones; decide) demoUnsent demoBrowsing
    (by unfold SequenceOnce; decide) 2 newestFirst (some 1) demoBrowsed_calls (by decide +kernel)
    (x := demoFound 2 20) (by decide +kernel) with ⟨n, hn, hshown⟩ | hbeyond | ⟨n, hn, b, j, hbefore, htaken⟩
  · have hmissed : ∀ n ≤ 1, demoFound 2 20 ∉ (demoFoundPages n).results := by decide +kernel
    exact absurd hshown (hmissed n hn)
  · exact absurd hbeyond (by decide +kernel)
  · obtain rfl : n = 0 := by omega
    exact ⟨b, j, hbefore, htaken⟩

end GigMarketplace
