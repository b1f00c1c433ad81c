/-
The history of a job: who moved it, when, and what its row says of the states it has been in.

`Op.Moves` is the law of the four operations that move a job, for one row: which call may do what to it. A run is
looked at through its prefixes: `jobAfter ops i` is the row of job `i` once the calls `ops` were made, and a job has
passed through a status when it showed it after some prefix of the run.

Results, for any calls by any callers in any order:
- `Step.job_moves`: what a call does to the row of a job: nothing, or it posts it, or moves it by the law;
- `Step.job_later`, `job_later_run`: employer and price never change, a worker once set stays, the status only advances,
  and a job that has ended keeps its row;
- `History`: the times on the row are set for exactly the statuses the job has passed through (`history_run`), and are
  non-decreasing when the clock is;
- `job_lifecycle`: all of these for a run.
-/
import GigMarketplace.Lifecycle
import Mathlib.Data.List.Induction

namespace GigMarketplace

open GigMarketplace.Core

/-! ## The law -/

/-- the call `op` may move the job `j`, and this is what becomes of the row -/
inductive Op.Moves (E : Env) (j : Job) : Op → Job → Prop where
  | accept {jobId : String} {worker : User} {now : Time} (hid : E.py.int jobId = some j.id)
      (hrole : worker.isWorker) (hown : worker.id ≠ j.employer) (h : j.status = .created) :
      Moves E j (.acceptJob jobId worker now)
        { j with worker := some worker.id, status := .accepted, acceptedAt := some now }
  | start {jobId : String} {worker : User} {now : Time} (hid : E.py.int jobId = some j.id)
      (hworker : j.worker = some worker.id) (h : j.status = .accepted) :
      Moves E j (.startJob jobId worker now) { j with status := .inProgress, startedAt := some now }
  | complete {jobId : String} {employer : User} {now : Time} (hid : E.py.int jobId = some j.id)
      (hrole : employer.isEmployer) (hemployer : employer.id = j.employer) (h : j.status = .inProgress) :
      Moves E j (.completeJob jobId employer now) { j with status := .completed, completedAt := some now }
  | cancel {jobId : String} {user : User} {reason : String} {now : Time} (hid : E.py.int jobId = some j.id)
      (hcaller : user.id = j.employer ∨ j.worker = some user.id) (h : j.isOpen) :
      Moves E j (.cancelJob jobId user reason now)
        { j with status := .cancelled, cancelledAt := some now, cancelReason := reason }

/-- `timezone.now()` in the call -/
def Op.now : Op → Option Time
  | .createJob _ _ _ now => some now
  | .acceptJob _ _ now => some now
  | .startJob _ _ now => some now
  | .completeJob _ _ now => some now
  | .cancelJob _ _ _ now => some now
  | .initiateDeposit .. => none
  | .confirmDeposit .. => none

/-- the column with the time at which the job got the status -/
def Job.stamp (j : Job) : JobStatus → Option Time
  | .created => some j.createdAt
  | .accepted => j.acceptedAt
  | .inProgress => j.startedAt
  | .completed => j.completedAt
  | .cancelled => j.cancelledAt

/-- the times that are set, in the order of the states -/
def Job.times (j : Job) : List Time :=
  j.acceptedAt.toList ++ j.startedAt.toList ++ j.completedAt.toList ++ j.cancelledAt.toList

/-- the order of the statuses: forward along CREATED, ACCEPTED, IN_PROGRESS, COMPLETED, and to CANCELLED before that -/
def JobStatus.Before : JobStatus → JobStatus → Prop
  | .created, _ => True
  | .accepted, s => s ≠ .created
  | .inProgress, s => s = .inProgress ∨ s = .completed ∨ s = .cancelled
  | .completed, s => s = .completed
  | .cancelled, s => s = .cancelled

theorem JobStatus.Before.refl (s : JobStatus) : s.Before s := by
  cases s <;> simp [Before]

theorem JobStatus.Before.trans {s t u : JobStatus} (h : s.Before t) (h' : t.Before u) : s.Before u := by
  cases s <;> cases t <;> cases u <;> simp_all [Before]

/-! ## One call -/

section Steps

variable {E : Env} {db db' : DB} {op : Op}

/-- what a call does to the row of the job `i` -/
inductive RowChange (E : Env) (op : Op) (i : Pk) (row row' : Option Job) : Prop where
  | same (h : row' = row)
  | posted (employer : User) (data : JobData) (now : Time) (hop : op = .createJob i employer data now)
      (hrole : employer.isEmployer) (hfresh : row = none) (h : row' = some (newJob i employer data now))
  | moved (j j' : Job) (hj : row = some j) (hmove : op.Moves E j j') (h : row' = some j')

/-- a call that moves the row `j` and no other one -/
theorem rowChange_update {j : Job} {f : Job → Job} (hj : db.jobs.find j.id = some j) (hid : (f j).id = j.id)
    (hmove : op.Moves E j (f j)) (i : Pk) : RowChange E op i (db.jobs.find i) ((db.jobs.update j.id f).find i) := by
  by_cases hi : j.id = i
  · subst hi
    exact .moved j (f j) hj hmove (Table.find_update_self hj hid)
  · exact .same (Table.find_update_ne hi)

/-- **A call moves a job by the law, or leaves it.** -/
theorem Step.job_moves (h : Step E db op db') (i : Pk) : RowChange E op i (db.jobs.find i) (db'.jobs.find i) := by
  cases h with
  | @createJob id employer data now w hrole hprice huser hfresh hw hcover hcols =>
    have hfind : (db.jobs.insert (newJob id employer data now)).find i =
        if id = i then some ((db.jobs.find i).getD (newJob id employer data now)) else db.jobs.find i :=
      Table.find_insert i
    by_cases hi : id = i
    · subst hi
      rw [if_pos rfl, hfresh, Option.getD_none] at hfind
      exact .posted employer data now rfl hrole hfresh hfind
    · rw [if_neg hi] at hfind
      exact .same hfind
  | @acceptJob jobId worker now j hj hrole hstatus hown huser =>
    exact rowChange_update hj.row rfl (.accept hj.key hrole (Ne.symm hown) hstatus) i
  | @startJob jobId worker now j hj hworker hstatus =>
    exact rowChange_update hj.row rfl (.start hj.key hworker hstatus) i
  | @completeJob jobId employer now j we ww worker hj hrole hemployer hstatus hworker hwe hww hcols =>
    exact rowChange_update hj.row rfl (.complete hj.key hrole hemployer.symm hstatus) i
  | @cancelJob jobId user reason now j w hj hcaller hopen hw hcols =>
    exact rowChange_update hj.row rfl (.cancel hj.key hcaller hopen) i
  | initiateDeposit hlimits hw hcols hfresh hp => exact .same rfl
  | confirmDeposit hid hr hstatus hw hlimits hcols => exact .same rfl

/-- the call of a run, which may also fail -/
theorem step_job_moves (E : Env) (db : DB) (op : Op) (i : Pk) :
    RowChange E op i (db.jobs.find i) ((step E db op).jobs.find i) := by
  rcases step_cases E db op with h | h
  · exact h.job_moves i
  · exact .same (by rw [h])

/-! ### What a move keeps -/

/-- what later rows of a job keep of an earlier one -/
structure Job.Later (j j' : Job) : Prop where
  employer : j'.employer = j.employer
  price : j'.price = j.price
  worker : j.worker ≠ none → j'.worker = j.worker
  status : j.status.Before j'.status
  ended : ¬ j.isOpen → j' = j

theorem Job.Later.refl (j : Job) : j.Later j :=
  ⟨rfl, rfl, fun _ => rfl, JobStatus.Before.refl _, fun _ => rfl⟩

theorem Job.Later.trans {j j' j'' : Job} (h : j.Later j') (h' : j'.Later j'') : j.Later j'' where
  employer := h'.employer.trans h.employer
  price := h'.price.trans h.price
  worker := fun hw => by
    have hkept := h.worker hw
    exact (h'.worker (by rw [hkept]; exact hw)).trans hkept
  status := h.status.trans h'.status
  ended := fun ho => by
    have hsame := h.ended ho
    subst hsame
    exact h'.ended ho

/-- a move; a CREATED row has no worker yet -/
theorem Op.Moves.later {j j' : Job} (h : op.Moves E j j') (hc : j.status = .created → j.worker = none) :
    j.Later j' := by
  cases h with
  | accept hid hrole hown h =>
    exact ⟨rfl, rfl, fun hw => absurd (hc h) hw, by simp [h, JobStatus.Before], fun ho => absurd (Or.inl h) ho⟩
  | start hid hworker h =>
    exact ⟨rfl, rfl, fun _ => rfl, by simp [h, JobStatus.Before], fun ho => absurd (Or.inr (Or.inl h)) ho⟩
  | complete hid hrole hemployer h =>
    exact ⟨rfl, rfl, fun _ => rfl, by simp [h, JobStatus.Before], fun ho => absurd (Or.inr (Or.inr h)) ho⟩
  | cancel hid hcaller h =>
    refine ⟨rfl, rfl, fun _ => rfl, ?_, fun ho => absurd h ho⟩
    rcases h with h | h | h <;> simp [h, JobStatus.Before]

/-- the times of a row: a move sets the one of the new status -/
theorem Op.Moves.stamp {j j' : Job} (h : op.Moves E j j') (s : JobStatus) :
    (j'.stamp s).isSome ↔ (j.stamp s).isSome ∨ s = j'.status := by
  cases h <;> cases s <;> simp [Job.stamp]

theorem Op.Moves.worker {j j' : Job} (h : op.Moves E j j') :
    j'.worker ≠ none ↔ j.worker ≠ none ∨ j'.status = .accepted := by
  cases h <;> simp

/-- the new time is the last one, if no time of a later status was set before -/
theorem Op.Moves.times {j j' : Job} (h : op.Moves E j j') (hb : ∀ s, (j.stamp s).isSome → s.Before j.status) :
    ∃ now, op.now = some now ∧ j'.times = j.times ++ [now] := by
  have hunset : ∀ s, ¬ s.Before j.status → j.stamp s = none := fun s hs =>
    Option.not_isSome_iff_eq_none.1 fun hset => hs (hb s hset)
  cases h with
  | @accept jobId worker now hid hrole hown h =>
    have h1 : j.startedAt = none := hunset .inProgress (by simp [h, JobStatus.Before])
    have h2 : j.completedAt = none := hunset .completed (by simp [h, JobStatus.Before])
    have h3 : j.cancelledAt = none := hunset .cancelled (by simp [h, JobStatus.Before])
    have h0 : j.acceptedAt = none := hunset .accepted (by simp [h, JobStatus.Before])
    exact ⟨now, rfl, by simp [Job.times, h0, h1, h2, h3]⟩
  | @start jobId worker now hid hworker h =>
    have h1 : j.startedAt = none := hunset .inProgress (by simp [h, JobStatus.Before])
    have h2 : j.completedAt = none := hunset .completed (by simp [h, JobStatus.Before])
    have h3 : j.cancelledAt = none := hunset .cancelled (by simp [h, JobStatus.Before])
    exact ⟨now, rfl, by simp [Job.times, h1, h2, h3]⟩
  | @complete jobId employer now hid hrole hemployer h =>
    have h2 : j.completedAt = none := hunset .completed (by simp [h, JobStatus.Before])
    have h3 : j.cancelledAt = none := hunset .cancelled (by simp [h, JobStatus.Before])
    exact ⟨now, rfl, by simp [Job.times, h2, h3]⟩
  | @cancel jobId user reason now hid hcaller h =>
    have h3 : j.cancelledAt = none := by
      refine hunset .cancelled ?_
      rcases h with h | h | h <;> simp [h, JobStatus.Before]
    exact ⟨now, rfl, by simp [Job.times, h3]⟩

end Steps

/-! ## Runs -/

/-- the row of the job `i` after the calls `ops` -/
def jobAfter (E : Env) (users : Table User) (ops : List Op) (i : Pk) : Option Job :=
  (run E (init users) ops).jobs.find i

/-- the job `i` showed the status `s` at some point of the run -/
def PassedThrough (E : Env) (users : Table User) (ops : List Op) (i : Pk) (s : JobStatus) : Prop :=
  ∃ ops₁, ops₁ <+: ops ∧ ∃ j, jobAfter E users ops₁ i = some j ∧ j.status = s

section Runs

variable {E : Env} {users : Table User} {ops : List Op} {op : Op} {i : Pk} {j : Job} {s : JobStatus}

theorem jobAfter_snoc (ops : List Op) (op : Op) : jobAfter E users (ops ++ [op]) i =
    (step E (run E (init users) ops) op).jobs.find i := by
  rw [jobAfter, run_append]
  rfl

theorem jobAfter_change (E : Env) (users : Table User) (ops : List Op) (op : Op) (i : Pk) :
    RowChange E op i (jobAfter E users ops i) (jobAfter E users (ops ++ [op]) i) := by
  rw [jobAfter_snoc]
  exact step_job_moves E _ op i

theorem Step.job_later {db db' : DB} (hl : Linked db) (h : Step E db op db') (hj : db.jobs.find i = some j) :
    ∃ j', db'.jobs.find i = some j' ∧ j.Later j' := by
  cases h.job_moves i with
  | same h => exact ⟨j, h.trans hj, .refl j⟩
  | posted employer data now hop hrole hfresh h => rw [hj] at hfresh; cases hfresh
  | moved k k' hk hmove h =>
    rw [hj] at hk
    cases hk
    exact ⟨k', h, hmove.later (hl.jobs j (Table.mem_of_find hj)).created⟩

theorem job_later_run (hj : jobAfter E users ops i = some j) (ops' : List Op) :
    ∃ j', jobAfter E users (ops ++ ops') i = some j' ∧ j.Later j' := by
  have h : Linked (run E (run E (init users) ops) ops') ∧
      ∃ j', (run E (run E (init users) ops) ops').jobs.find i = some j' ∧ j.Later j' := by
    refine run_inv (P := fun db => Linked db ∧ ∃ j', db.jobs.find i = some j' ∧ j.Later j')
      (fun db op db' h hs => ?_) ⟨linked_run E users ops, j, hj, .refl j⟩ ops'
    obtain ⟨hl, j', hj', hlater⟩ := h
    obtain ⟨j'', hj'', hlater'⟩ := hs.job_later hl hj'
    exact ⟨linked_step hl hs, j'', hj'', hlater.trans hlater'⟩
  rw [jobAfter, run_append]
  exact h.2

/-- a status passed through is not behind the one shown -/
theorem PassedThrough.before (h : PassedThrough E users ops i s) (hj : jobAfter E users ops i = some j) :
    s.Before j.status := by
  obtain ⟨ops₁, hpre, j₁, hj₁, rfl⟩ := h
  obtain ⟨ops₂, rfl⟩ := hpre
  obtain ⟨j', hj', hlater⟩ := job_later_run hj₁ ops₂
  rw [hj] at hj'
  cases hj'
  exact hlater.status

theorem passedThrough_snoc : PassedThrough E users (ops ++ [op]) i s ↔
    PassedThrough E users ops i s ∨ ∃ j, jobAfter E users (ops ++ [op]) i = some j ∧ j.status = s := by
  constructor
  · intro h
    obtain ⟨ops₁, hpre, hj⟩ := h
    rcases List.prefix_concat_iff.1 hpre with rfl | hpre
    · exact Or.inr hj
    · exact Or.inl ⟨ops₁, hpre, hj⟩
  · intro h
    rcases h with ⟨ops₁, hpre, hj⟩ | hj
    · exact ⟨ops₁, hpre.trans (List.prefix_append _ _), hj⟩
    · exact ⟨_, List.prefix_refl _, hj⟩

/-- what the row of a job says of its history -/
structure History (E : Env) (users : Table User) (ops : List Op) (i : Pk) (j : Job) : Prop where
  stamps : ∀ s, (j.stamp s).isSome ↔ PassedThrough E users ops i s
  worker : j.worker ≠ none ↔ PassedThrough E users ops i .accepted

theorem history_run (E : Env) (users : Table User) (ops : List Op) (i : Pk) :
    ∀ j, jobAfter E users ops i = some j → History E users ops i j := by
  induction ops using List.reverseRecOn with
  | nil =>
    intro j hj
    simp [jobAfter, run, init] at hj
  | append_singleton ops op ih =>
    intro j' hj'
    cases jobAfter_change E users ops op i with
    | same h =>
      have hold : jobAfter E users ops i = some j' := h.symm.trans hj'
      have hpassed : ∀ s, PassedThrough E users (ops ++ [op]) i s ↔ PassedThrough E users ops i s := fun s => by
        rw [passedThrough_snoc, h]
        exact or_iff_left_of_imp fun hs => ⟨ops, List.prefix_refl _, hs⟩
      exact ⟨fun s => ((ih j' hold).stamps s).trans (hpassed s).symm, (ih j' hold).worker.trans (hpassed _).symm⟩
    | posted employer data now hop hrole hfresh h =>
      rw [h] at hj'
      cases hj'
      -- a job that is not there has not been there
      have hpassed : ∀ s, PassedThrough E users (ops ++ [op]) i s ↔ s = .created := fun s => by
        rw [passedThrough_snoc, h]
        constructor
        · intro hs
          rcases hs with ⟨ops₁, ⟨ops₂, rfl⟩, j₁, hj₁, -⟩ | ⟨j, hj, rfl⟩
          · obtain ⟨j₂, hj₂, -⟩ := job_later_run hj₁ ops₂
            rw [hfresh] at hj₂
            cases hj₂
          · cases hj
            rfl
        · intro hs
          exact Or.inr ⟨_, rfl, hs.symm⟩
      refine ⟨fun s => ?_, ?_⟩
      · rw [hpassed]
        cases s <;> simp [Job.stamp, newJob]
      · rw [hpassed]
        simp [newJob]
    | moved j k hj hmove h =>
      rw [h] at hj'
      cases hj'
      have hpassed : ∀ s, PassedThrough E users (ops ++ [op]) i s ↔
          PassedThrough E users ops i s ∨ s = j'.status := fun s => by
        rw [passedThrough_snoc, h]
        simp [eq_comm]
      refine ⟨fun s => ?_, ?_⟩
      · rw [hpassed, hmove.stamp, (ih j hj).stamps]
      · rw [hpassed, hmove.worker, (ih j hj).worker, eq_comm]

/-- the times come from the calls of the run, and are in the order of the states -/
theorem times_run (E : Env) (users : Table User) (ops : List Op) (hclock : (ops.filterMap Op.now).Pairwise (· ≤ ·))
    (i : Pk) : ∀ j, jobAfter E users ops i = some j →
      j.times.Pairwise (· ≤ ·) ∧ ∀ t ∈ j.times, t ∈ ops.filterMap Op.now := by
  induction ops using List.reverseRecOn with
  | nil =>
    intro j hj
    simp [jobAfter, run, init] at hj
  | append_singleton ops op ih =>
    intro j' hj'
    rw [List.filterMap_append, List.pairwise_append] at hclock
    obtain ⟨hold, -, hlast⟩ := hclock
    rw [List.filterMap_append]
    cases jobAfter_change E users ops op i with
    | same h =>
      obtain ⟨h1, h2⟩ := ih hold j' (h.symm.trans hj')
      exact ⟨h1, fun t ht => List.mem_append_left _ (h2 t ht)⟩
    | posted employer data now hop hrole hfresh h =>
      rw [h] at hj'
      cases hj'
      have hnone : (newJob i employer data now).times = [] := rfl
      rw [hnone]
      exact ⟨List.Pairwise.nil, fun t ht => absurd ht (List.not_mem_nil)⟩
    | moved j k hj hmove h =>
      rw [h] at hj'
      cases hj'
      obtain ⟨h1, h2⟩ := ih hold j hj
      obtain ⟨now, hnow, htimes⟩ := hmove.times fun s hs => (((history_run E users ops i j hj).stamps s).1 hs).before hj
      have hop : now ∈ [op].filterMap Op.now := by simp [hnow]
      rw [htimes]
      refine ⟨List.pairwise_append.2 ⟨h1, List.pairwise_singleton _ _, fun t ht u hu => ?_⟩, fun t ht => ?_⟩
      · rw [List.mem_singleton.1 hu]
        exact hlast t (h2 t ht) now hop
      · rcases List.mem_append.1 ht with ht | ht
        · exact List.mem_append_left _ (h2 t ht)
        · rw [List.mem_singleton.1 ht]
          exact List.mem_append_right _ hop

end Runs

/-- **Job lifecycle safety**, for calls by any users with any ids in any order and a clock that does not run backwards.
Every call leaves the row of a job, posts it as CREATED, or moves it by the law `Op.Moves`; what later rows keep of
earlier ones is `Job.Later`; the times and the worker are set exactly for the statuses passed through, in order. -/
theorem job_lifecycle (E : Env) (users : Table User) (ops : List Op)
    (hclock : (ops.filterMap Op.now).Pairwise (· ≤ ·)) (i : Pk) :
    (∀ ops₁ op ops₂, ops = ops₁ ++ op :: ops₂ →
      RowChange E op i (jobAfter E users ops₁ i) (jobAfter E users (ops₁ ++ [op]) i)) ∧
    (∀ ops₁ ops₂ j, ops = ops₁ ++ ops₂ → jobAfter E users ops₁ i = some j →
      ∃ j', jobAfter E users ops i = some j' ∧ j.Later j') ∧
    ∀ j, jobAfter E users ops i = some j →
      (∀ s, (j.stamp s).isSome ↔ PassedThrough E users ops i s) ∧
      (j.worker ≠ none ↔ PassedThrough E users ops i .accepted) ∧ j.times.Pairwise (· ≤ ·) := by
  refine ⟨fun ops₁ op ops₂ _ => jobAfter_change E users ops₁ op i, fun ops₁ ops₂ j hops hj => ?_, fun j hj => ?_⟩
  · rw [hops]
    exact job_later_run hj ops₂
  · have h := history_run E users ops i j hj
    exact ⟨h.stamps, h.worker, (times_run E users ops hclock i j hj).1⟩

theorem job_lifecycle_demo : ∃ j, jobAfter demoEnv demoUsers demoPaid 1 = some j ∧ j.times = [1, 2, 3] ∧
    j.times.Pairwise (· ≤ ·) := by
  have hclock : (demoPaid.filterMap Op.now).Pairwise (· ≤ ·) := by decide
  obtain ⟨j, hj⟩ : ∃ j, jobAfter demoEnv demoUsers demoPaid 1 = some j :=
    Option.isSome_iff_exists.1 (by decide +kernel)
  have htimes : (jobAfter demoEnv demoUsers demoPaid 1).map Job.times = some [1, 2, 3] := by decide +kernel
  rw [hj] at htimes
  exact ⟨j, hj, Option.some.inj htimes, ((job_lifecycle demoEnv demoUsers demoPaid hclock 1).2.2 j hj).2.2⟩

end GigMarketplace
