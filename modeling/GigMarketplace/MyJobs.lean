/-
`GET /jobs/my/`, page by page, while jobs are posted, accepted and paid.

The jobs of a user only become more: a job keeps what it was posted with, and the worker it has (`Job.Stays`). But an
old job may come in between, when a worker accepts it; and the page and its count are of different moments
(`PagedReads.lean`).

Results:
- `jobsOf_grow`: what a user is a party of, seen at two moments;
- `my_jobs_shown_or_cut`: a client that asks for page after page is shown every job that the user had when it began, or
  the job stands behind the last count.
-/
import GigMarketplace.Authority
import Mathlib.Tactic.IntervalCases

namespace GigMarketplace

open GigMarketplace.Core

/-! ## What a reader sees -/

section Growing

variable {X : AuthEnv} {s s' final : Site} {user : Pk}

/-- the columns that `my_jobs` sorts by -/
def Job.posted (j : Job) : Pk × Time := (j.id, j.createdAt)

def postedJobs (user : Pk) (s : Site) : List (Pk × Time) :=
  (s.db.jobs.rows.filter fun j => j.employer = user ∨ j.worker = some user).map Job.posted

theorem ids_jobsOf (user : Pk) (s : Site) :
    (jobsOf user s).map Job.id = (sortOn Prod.snd true (postedJobs user s)).map Prod.fst := by
  have hsorted : (jobsOf user s).map Job.posted = sortOn Prod.snd true (postedJobs user s) :=
    @map_sortOn _ _ _ (fun p : Pk × Time => p.2) true _ Job.posted _
  rw [← hsorted, List.map_map]
  rfl

/-- the user's jobs were posted at different times -/
def PostedApart (user : Pk) (s : Site) : Prop := ((jobsOf user s).map Job.createdAt).Nodup

theorem postedApart_iff : PostedApart user s ↔ ((postedJobs user s).map Prod.snd).Nodup := by
  rw [postedJobs, List.map_map]
  exact ((perm_sortOn _).map Job.createdAt).nodup_iff

theorem postedJobs_subperm (h : Kept s s') : (postedJobs user s).Subperm (postedJobs user s') := by
  apply List.Nodup.subperm
  · apply List.Nodup.of_map Prod.fst
    rw [postedJobs, List.map_map]
    exact s.db.jobs.nodup.sublist (List.filter_sublist.map _)
  · intro p hp
    obtain ⟨j, hj, rfl⟩ := List.mem_map.1 hp
    obtain ⟨hmem, hparty⟩ := List.mem_filter.1 hj
    obtain ⟨j', hfind, hstays⟩ := h.jobs _ j (Table.find_of_mem hmem)
    have hid : j'.id = j.id := Table.pk_of_find hfind
    refine List.mem_map.2 ⟨j', List.mem_filter.2 ⟨Table.mem_of_find hfind, ?_⟩, Prod.ext hid hstays.createdAt⟩
    apply decide_eq_true
    rcases of_decide_eq_true hparty with hemployer | hworker
    · exact Or.inl (hstays.employer.trans hemployer)
    · exact Or.inr (hstays.worker user hworker)

theorem PostedApart.before (h : PostedApart user s') (hkept : Kept s s') : PostedApart user s := by
  obtain ⟨l, hperm, hsub⟩ := @postedJobs_subperm s s' user hkept
  rw [postedApart_iff] at h ⊢
  exact (hperm.map Prod.snd).nodup_iff.1 (h.sublist (hsub.map Prod.snd))

/-- **The jobs of a user only become more.** -/
theorem jobsOf_grow (h : Kept s s') (hapart : PostedApart user s') :
    ((jobsOf user s).map Job.id).Sublist ((jobsOf user s').map Job.id) := by
  rw [ids_jobsOf, ids_jobsOf]
  apply List.Sublist.map
  exact sortOn_sublist (postedJobs_subperm h) (postedApart_iff.1 hapart)

/-- a page of a user who is there is one of `jobsOf` -/
theorem MyPage.paged {P : PageSettings} {q : PageQuery} {page : Page Job} {t₀ t : AuthSite}
    (h : MyPage X.base P user none q t₀.site page t.site) (ht : SiteLaw X.base t.site)
    (hkept : Kept t₀.site t.site) :
    Paged P q (fun t : AuthSite => jobsOf user t.site) (fun t t' => Kept t.site t'.site) t₀ page t := by
  obtain ⟨a, ha, s₁, hfirst, hlast, hvalid, hpage⟩ := h
  obtain ⟨rfl, hfind, -⟩ := authenticate_ok ha
  have hrole : t₀.site.HasRole a.id a.role := ⟨_, identity_of_find hfind⟩
  rw [myJobsQuery_eq hfirst.law (hrole.kept hfirst.kept.people)] at hvalid hpage
  rw [myJobsQuery_eq ht (hrole.kept hkept.people)] at hpage
  exact ⟨sitePart.set s₁ t, hfirst.kept, hlast.kept, hvalid, hpage⟩

end Growing

/-- **All of a user's jobs, but for what LIMIT cuts off.** While any other requests run, a client that asks for page
after page of `my_jobs` until there is no next one is shown every job of which the user was a party when it began, or
the job is one of the oldest that stand beyond the last COUNT when the last page is read; and it is shown as many rows
as that COUNT says. -/
theorem my_jobs_shown_or_cut (X : AuthEnv) (accounts : Table Account) (hphones : DistinctPhones accounts)
    (otp : OtpSite) (evs : List AuthEvent) (hseq : SequenceOnce otp evs) (user : Pk) (pageSize : Option ℤ)
    (hapart : PostedApart user (authRun X accounts otp evs).mem.site) {last : ℕ} {entries : ℕ → AuthEntry}
    {pages : ℕ → Page Job}
    (hcalls : PageCalls (authRun X accounts otp evs).trace (fun n => .market (.myJobs user none ⟨n, pageSize⟩))
      (fun page => .market (.jobs page)) last entries pages) :
    (∀ j ∈ (entries 0).origin.site.db.jobs.rows, j.employer = user ∨ j.worker = some user →
      (∃ n ≤ last, ∃ j' ∈ (pages n).results, j'.id = j.id) ∨
        j.id ∈ ((jobsOf user (entries last).after.site).drop (pages last).count).map Job.id) ∧
      ((List.range (last + 1)).flatMap fun n => (pages n).results).length = (pages last).count := by
  obtain ⟨hlaw, hassured, hordered⟩ := auth_run (X := X) hphones hseq
  have hkept : OrderedTrace (fun t t' : AuthSite => Kept t.site t'.site) (AuthSite.opened accounts otp)
      (authRun X accounts otp evs).mem (authRun X accounts otp evs).trace := hordered.mono fun _ _ h => h.site
  have hgrows : ∀ t t' : AuthSite, Kept t.site t'.site → Kept t'.site (authRun X accounts otp evs).mem.site →
      ((jobsOf user t.site).map Job.id).Sublist ((jobsOf user t'.site).map Job.id) :=
    fun t t' h h' => jobsOf_grow h (hapart.before h')
  have hreturned : ∀ e ∈ (authRun X accounts otp evs).trace, ∀ n page,
      e.op = .market (.myJobs user none ⟨n, pageSize⟩) → e.result = some (.ok (.market (.jobs page))) →
      Paged X.pages ⟨n, pageSize⟩ (fun t : AuthSite => jobsOf user t.site) (fun t t' => Kept t.site t'.site) e.origin
        page e.after := by
    intro e he n page hop hresult
    obtain ⟨⟨hbefore, hafter⟩, hstep, hpromised⟩ := hassured e he
    have hanswer := hpromised _ hresult
    rw [hop] at hanswer
    exact MyPage.paged hanswer hafter.site ((hkept.own e he).trans hstep.grows.site)
  have hread := read_or_beyond hcalls hreturned hkept (fun _ _ _ => Kept.trans) hgrows
  refine ⟨fun j hj hparty => ?_, hread.2⟩
  have hmem : j.id ∈ (jobsOf user (entries 0).origin.site).map Job.id :=
    List.mem_map_of_mem (mem_jobsOf.2 ⟨hj, hparty⟩)
  rcases hread.1 j.id hmem with ⟨n, hn, hshown⟩ | hbeyond
  · left
    obtain ⟨j', hj', hid⟩ := List.mem_map.1 hshown
    exact ⟨n, hn, j', hj', hid⟩
  · right
    rwa [List.map_drop]

/-! ## Three jobs of one employer -/

def posting (id : Pk) (now : Time) : MarketRequest := .job ⟨1, .create id (some demoJob), now, rfl⟩

/-- two jobs are posted, and the employer asks for pages of one job; a third one is posted after the first page -/
def demoAsking : List AuthEvent :=
  [MarketRequest.deposit ⟨1, .obj [("amount", .int 500000), ("provider", .str "click")], 1, ""⟩,
    .callback (.click (.obj demoCallback)), posting 1 10, posting 2 20].flatMap served ++
  asking 1 ++ served (posting 3 30) ++ asking 2 ++ asking 3
where
  asking (n : ℤ) : List AuthEvent := [.start 0 (.market (.myJobs 1 none ⟨n, some 1⟩)), .step 0, .step 0]

theorem demoAsking_length : (authRun demoAuth demoAccounts demoUnsent demoAsking).trace.length = 18 := by
  decide +kernel

/-- the entries with the answers -/
def demoListed (n : ℕ) : AuthEntry :=
  (authRun demoAuth demoAccounts demoUnsent demoAsking).trace.get
    ⟨[9, 14, 17].getD n 17, by
      rw [demoAsking_length]
      match n with
      | 0 => decide
      | 1 => decide
      | 2 => decide
      | _ + 3 => exact Nat.lt_succ_self 17⟩

def demoPostedJob (id : Pk) (now : Time) : Job := newJob id demoEmployer demoJob now

def demoJobPages : ℕ → Page Job
  | 0 => ⟨2, 2, 1, some 2, none, [demoPostedJob 2 20]⟩
  | 1 => ⟨3, 3, 2, some 3, some 1, [demoPostedJob 2 20]⟩
  | _ => ⟨3, 3, 3, none, some 2, [demoPostedJob 1 10]⟩

/-- the page that the entry answers with -/
def listedPage (e : AuthEntry) : Option (Page Job) :=
  match e.result with
  | some (.ok (.market (.jobs page))) => some page
  | _ => none

theorem listedPage_some {e : AuthEntry} {page : Page Job} (h : listedPage e = some page) :
    e.result = some (.ok (.market (.jobs page))) := by
  unfold listedPage at h
  split at h
  · rename_i page' hresult
    cases h
    exact hresult
  · cases h

theorem demoListed_calls : PageCalls (authRun demoAuth demoAccounts demoUnsent demoAsking).trace
    (fun n => .market (.myJobs 1 none ⟨n, some 1⟩)) (fun page => .market (.jobs page)) 2 demoListed demoJobPages := by
  refine ⟨fun n _ => List.get_mem _ _, ?_, ?_, ?_, ?_⟩
  · intro n hn
    interval_cases n <;> rfl
  · intro n hn
    apply listedPage_some
    interval_cases n <;> decide +kernel
  · intro n hn
    interval_cases n <;> decide +kernel
  · intro n hn
    interval_cases n <;> decide

theorem my_jobs_shown_or_cut_demo :
    (∀ j ∈ (demoListed 0).origin.site.db.jobs.rows, j.employer = 1 ∨ j.worker = some 1 →
      (∃ n ≤ 2, ∃ j' ∈ (demoJobPages n).results, j'.id = j.id) ∨
        j.id ∈ ((jobsOf 1 (demoListed 2).after.site).drop 3).map Job.id) ∧
      ((List.range 3).flatMap fun n => (demoJobPages n).results).length = 3 :=
  my_jobs_shown_or_cut demoAuth demoAccounts (by unfold DistinctPhones; decide) demoUnsent demoAsking
    (by unfold SequenceOnce; decide) 1 (some 1) (by unfold PostedApart; decide +kernel) demoListed_calls

end GigMarketplace
