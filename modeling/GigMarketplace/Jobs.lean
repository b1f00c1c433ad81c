/-
`apps/jobs/services.py`: JobService.

Each function is the transaction program its Python body issues. A job id arrives as a string of the URL and is
converted by the lookup; `accept_job` turns every failure of its query but DoesNotExist into a ConflictException.
`accept_job` locks the job and the joined employer row without waiting. The other three lock through
`select_related("employer", "worker")`. The worker is nullable, so the query of `complete_job` and `cancel_job` has a
LEFT OUTER JOIN, and `Env` says whether the engine accepts FOR UPDATE there; that of `start_job` filters on the worker,
which makes the join an INNER JOIN. The cache invalidation at the end of each function swallows its own exceptions and
touches no row; it is left out.

Results: for each function, exactly when it succeeds and what it then returns and writes (`runs_createJob`,
`runs_acceptJob`, `runs_startJob`, `runs_completeJob`, `runs_cancelJob`).
-/
import GigMarketplace.Payments

namespace GigMarketplace

open GigMarketplace.Core GigMarketplace.Core.Prog

/-! ## Queries -/

/-- upper end of a PositiveIntegerField -/
def integerMax : ℤ := 2147483647

/-- `Job.objects.create(...)`; `j.id` is the value of the table's sequence -/
def Job.create (j : Job) : Tx Unit := do
  raiseIf (¬ (0 ≤ j.price ∧ j.price ≤ integerMax)) .databaseError
  @present gig (.user j.employer) .databaseError
  @Prog.create gig (.job j.id) j .databaseError

def User.lock (id : Pk) (busy : Option Exc) (miss : Exc) : Tx User :=
  @selectForUpdate gig (.user id) busy (fun _ => true) miss

def beingProcessed : Exc := .conflict "Job is currently being processed. Please try again."

/-- `select_for_update(nowait=True).select_related("employer").get(id=job_id)` inside accept_job's `try` -/
def Job.getNowait (E : Env) (jobId : String) : Tx Job :=
  match E.py.int jobId with
  | none => raise beingProcessed
  | some id => do
    let job ← (@selectForUpdate gig (.job id) (some beingProcessed) (fun _ => true) (.notFound "Job not found.") :
      Tx Job)
    let _ ← User.lock job.employer (some beingProcessed) (.notFound "Job not found.")
    return job

/-- the rows that the query locks: the job, its employer, and its worker, if it has one -/
def Job.lockJoined (id : Pk) (pick : Job → Bool) (missing : Exc) : Tx Job := do
  let job ← (@selectForUpdate gig (.job id) none pick missing : Tx Job)
  let _ ← User.lock job.employer none missing
  runIf job.worker.isSome (User.lock (job.worker.getD 0) none missing)
  return job

/-- `select_for_update().select_related("employer", "worker").get(id=job_id, ...)`, `pick` the rest of the filter -/
def Job.getForUpdate (E : Env) (jobId : String) (pick : Job → Bool) (missing : Exc) : Tx Job :=
  match E.py.int jobId with
  | none => raise .valueError
  | some id => do
    raiseIf (E.outerJoinLock = .refused) .notSupported
    Job.lockJoined id pick missing

/-- `select_for_update().select_related("employer", "worker").get(id=job_id, worker=worker)`: no outer join -/
def Job.getOfWorker (E : Env) (jobId : String) (worker : User) (missing : Exc) : Tx Job :=
  match E.py.int jobId with
  | none => raise .valueError
  | some id => Job.lockJoined id (fun j => j.worker = some worker.id) missing

/-! ## JobService -/

/-- the row `create_job` inserts -/
def newJob (id : Pk) (employer : User) (data : JobData) (now : Time) : Job :=
  { id, employer := employer.id, worker := none, title := data.title, category := data.category, price := data.price,
    latitude := data.latitude, longitude := data.longitude, status := .created, createdAt := now, acceptedAt := none,
    startedAt := none, completedAt := none, cancelledAt := none, cancelReason := "" }

def JobService.createJob (id : Pk) (employer : User) (data : JobData) (now : Time) : Tx Job := do
  raiseIf (¬ employer.isEmployer) (.forbidden "Only employers can create jobs.")
  let price := data.price
  let wallet ← Wallet.getForUpdate (some employer.id)
  raiseIf (wallet.balance < price)
    (.insufficientBalance s!"Insufficient balance. Required: {price}, Available: {wallet.balance}.")
  let job := newJob id employer data now
  job.create
  let _ ← WalletService.deductForJob wallet job
  @delay gig (.notifyNewJob job.id)
  return job

def JobService.acceptJob (E : Env) (jobId : String) (worker : User) (now : Time) : Tx Job := do
  raiseIf (¬ worker.isWorker) (.forbidden "Only workers can accept jobs.")
  let job ← Job.getNowait E jobId
  raiseIf (job.status ≠ .created) (.jobState s!"Job cannot be accepted. Current status: {job.status.value}.")
  raiseIf (job.employer = worker.id) (.forbidden "You cannot accept your own job.")
  let job := { job with worker := some worker.id, status := .accepted, acceptedAt := some now }
  @present gig (.user worker.id) .databaseError
  @set gig (.job job.id) fun r => { r with worker := job.worker, status := job.status, acceptedAt := job.acceptedAt }
  @delay gig (.notifyJobAccepted job.id)
  return job

def JobService.startJob (E : Env) (jobId : String) (worker : User) (now : Time) : Tx Job := do
  let job ← Job.getOfWorker E jobId worker (.notFound "Job not found or not assigned to you.")
  raiseIf (job.status ≠ .accepted) (.jobState s!"Job must be ACCEPTED to start. Current: {job.status.value}.")
  let job := { job with status := .inProgress, startedAt := some now }
  @set gig (.job job.id) fun r => { r with status := job.status, startedAt := job.startedAt }
  return job

def JobService.completeJob (E : Env) (jobId : String) (employer : User) (now : Time) : Tx Job := do
  raiseIf (¬ employer.isEmployer) (.forbidden "Only the employer can complete a job.")
  let job ← Job.getForUpdate E jobId (fun j => j.employer = employer.id) (.notFound "Job not found.")
  raiseIf (job.status ≠ .inProgress) (.jobState s!"Job must be IN_PROGRESS to complete. Current: {job.status.value}.")
  raiseIf (job.worker = none) (.jobState "Job has no assigned worker.")
  let job := { job with status := .completed, completedAt := some now }
  @set gig (.job job.id) fun r => { r with status := job.status, completedAt := job.completedAt }
  let _ ← WalletService.releaseJobPayment E job
  @delay gig (.notifyJobCompleted job.id)
  return job

def JobService.cancelJob (E : Env) (jobId : String) (user : User) (reason : String) (now : Time) : Tx Job := do
  let job ← Job.getForUpdate E jobId (fun _ => true) (.notFound "Job not found.")
  raiseIf (¬ (user.id = job.employer ∨ job.worker = some user.id))
    (.forbidden "You are not authorized to cancel this job.")
  raiseIf (¬ job.canBeCancelled) (.jobState s!"Job cannot be cancelled. Current status: {job.status.value}.")
  let prevStatus := job.status
  let job := { job with status := .cancelled, cancelledAt := some now, cancelReason := reason }
  @set gig (.job job.id) fun r =>
    { r with status := job.status, cancelledAt := job.cancelledAt, cancelReason := job.cancelReason }
  runIf (prevStatus = .created ∨ prevStatus = .accepted ∨ prevStatus = .inProgress) (WalletService.refundJob job)
  return job

/-! ## What a successful call did -/

section Runs

variable {E : Env} {db db' : DB} {j : Job} {jobId : String}

@[simp] theorem runs_userLock {id : Pk} {busy : Option Exc} {miss : Exc} {u : User} :
    Runs store (User.lock id busy miss) db u db' ↔ db.users.find id = some u ∧ db' = db := by
  refine (runs_selectForUpdate (S := gig) (k := .user id)).trans ?_
  simp

theorem runs_jobCreate {u : Unit} :
    Runs store j.create db u db' ↔ (0 ≤ j.price ∧ j.price ≤ integerMax) ∧ (db.users.find j.employer).isSome ∧
      db.jobs.find j.id = none ∧ db' = { db with jobs := db.jobs.insert j } := by
  simp only [Job.create, runs_bind, runs_raiseIf, runs_present, runs_create, not_not]
  refine ⟨?_, ?_⟩
  · intro hrun
    obtain ⟨_, _, ⟨h1, rfl⟩, _, _, ⟨h2, rfl⟩, h3, rfl⟩ := hrun
    exact ⟨h1, h2, h3, rfl⟩
  · intro hrun
    obtain ⟨h1, h2, h3, rfl⟩ := hrun
    exact ⟨(), _, ⟨h1, rfl⟩, (), _, ⟨h2, rfl⟩, h3, rfl⟩

/-- the row that accept_job's query returned -/
structure Fetched (E : Env) (db : DB) (jobId : String) (j : Job) : Prop where
  key : E.py.int jobId = some j.id
  row : db.jobs.find j.id = some j
  employer : (db.users.find j.employer).isSome

/-- the row that the query of the other three returned, with both parties joined -/
structure FetchedJoined (E : Env) (db : DB) (jobId : String) (j : Job) : Prop extends Fetched E db jobId j where
  worker : ∀ w, j.worker = some w → (db.users.find w).isSome

/-- the same through the outer join -/
structure FetchedOuter (E : Env) (db : DB) (jobId : String) (j : Job) : Prop extends FetchedJoined E db jobId j where
  outer : E.outerJoinLock ≠ .refused

theorem runs_jobGetNowait : Runs store (Job.getNowait E jobId) db j db' ↔ Fetched E db jobId j ∧ db' = db := by
  unfold Job.getNowait
  refine ⟨?_, ?_⟩
  · intro h
    cases hid : E.py.int jobId with
    | none => rw [hid] at h; simp at h
    | some id =>
      rw [hid] at h
      simp only [runs_bind, runs_userLock, runs_pure] at h
      obtain ⟨j', _, h1, u, _, ⟨hu, rfl⟩, rfl, rfl⟩ := h
      obtain ⟨hj, -, rfl⟩ := (runs_selectForUpdate (S := gig) (k := .job id)).1 h1
      rw [store_get, get_job] at hj
      cases Table.pk_of_find hj
      exact ⟨⟨hid, hj, by rw [hu]; rfl⟩, rfl⟩
  · intro hrun
    obtain ⟨h, rfl⟩ := hrun
    obtain ⟨u, hu⟩ := Option.isSome_iff_exists.1 h.employer
    rw [h.key]
    simp only [runs_bind, runs_userLock, runs_pure]
    exact ⟨j, _, (runs_selectForUpdate (S := gig) (k := .job j.id)).2 ⟨h.row, rfl, rfl⟩, u, _, ⟨hu, rfl⟩, rfl, rfl⟩

theorem runs_lockJoined {id : Pk} {pick : Job → Bool} {missing : Exc} (hid : E.py.int jobId = some id) :
    Runs store (Job.lockJoined id pick missing) db j db' ↔
      FetchedJoined E db jobId j ∧ pick j = true ∧ db' = db := by
  simp only [Job.lockJoined, runs_bind, runs_userLock, runs_runIf, runs_pure]
  refine ⟨?_, ?_⟩
  · intro h
    obtain ⟨j', _, h1, u, _, ⟨hu, rfl⟩, _, _, hw, rfl, rfl⟩ := h
    obtain ⟨hj, hp, rfl⟩ := (runs_selectForUpdate (S := gig) (k := .job id)).1 h1
    rw [store_get, get_job] at hj
    cases Table.pk_of_find hj
    rcases hw with ⟨-, v, hv, rfl⟩ | ⟨hn, rfl⟩
    · refine ⟨⟨⟨hid, hj, by rw [hu]; rfl⟩, fun w hw => ?_⟩, hp, rfl⟩
      rw [hw, Option.getD_some] at hv
      rw [hv]; rfl
    · exact ⟨⟨⟨hid, hj, by rw [hu]; rfl⟩, fun w hw => absurd (by rw [hw]; rfl) hn⟩, hp, rfl⟩
  · intro hrun
    obtain ⟨h, hp, rfl⟩ := hrun
    obtain rfl : id = j.id := Option.some.inj (hid.symm.trans h.key)
    obtain ⟨u, hu⟩ := Option.isSome_iff_exists.1 h.employer
    refine ⟨j, _, (runs_selectForUpdate (S := gig) (k := .job j.id)).2 ⟨h.row, hp, rfl⟩, u, _, ⟨hu, rfl⟩, (), _, ?_,
      rfl, rfl⟩
    cases hw : j.worker with
    | none => exact Or.inr ⟨by simp, rfl⟩
    | some w =>
      obtain ⟨v, hv⟩ := Option.isSome_iff_exists.1 (h.worker w hw)
      exact Or.inl ⟨rfl, v, by rw [Option.getD_some]; exact hv, rfl⟩

theorem runs_jobGetForUpdate {pick : Job → Bool} {missing : Exc} :
    Runs store (Job.getForUpdate E jobId pick missing) db j db' ↔
      FetchedOuter E db jobId j ∧ pick j = true ∧ db' = db := by
  unfold Job.getForUpdate
  refine ⟨?_, ?_⟩
  · intro h
    cases hid : E.py.int jobId with
    | none => rw [hid] at h; simp at h
    | some id =>
      rw [hid] at h
      simp only [runs_bind, runs_raiseIf, runs_lockJoined hid] at h
      obtain ⟨_, _, ⟨ho, rfl⟩, hj, hp, rfl⟩ := h
      exact ⟨⟨hj, ho⟩, hp, rfl⟩
  · intro hrun
    obtain ⟨h, hp, rfl⟩ := hrun
    rw [h.key]
    simp only [runs_bind, runs_raiseIf, runs_lockJoined h.key]
    exact ⟨(), _, ⟨h.outer, rfl⟩, h.toFetchedJoined, hp, rfl⟩

theorem runs_jobGetOfWorker {worker : User} {missing : Exc} :
    Runs store (Job.getOfWorker E jobId worker missing) db j db' ↔
      FetchedJoined E db jobId j ∧ j.worker = some worker.id ∧ db' = db := by
  unfold Job.getOfWorker
  refine ⟨?_, ?_⟩
  · intro h
    cases hid : E.py.int jobId with
    | none => rw [hid] at h; simp at h
    | some id =>
      rw [hid] at h
      simpa only [runs_lockJoined hid, decide_eq_true_eq] using h
  · intro h
    rw [h.1.key]
    simpa only [runs_lockJoined h.1.key, decide_eq_true_eq] using h

theorem runs_createJob {id : Pk} {employer : User} {data : JobData} {now : Time} :
    Runs store (JobService.createJob id employer data now) db j db' ↔
      employer.isEmployer ∧ j = newJob id employer data now ∧ j.price ≤ integerMax ∧
      (db.users.find employer.id).isSome ∧ db.jobs.find id = none ∧
      ∃ w, db.wallets.find employer.id = some w ∧ j.price ≤ w.balance ∧
        (InBigint j.price ∧ InBigint w.balance ∧ InBigint (w.balance - j.price) ∧
          InBigint (w.heldBalance + j.price) ∧ InBigint (w.totalSpent + j.price)) ∧
        db' = { db with
          jobs := db.jobs.insert j
          wallets := db.wallets.update employer.id fun r => { r with
            balance := w.balance - j.price
            heldBalance := w.heldBalance + j.price
            totalSpent := w.totalSpent + j.price }
          ledger := db.ledger ++ [paymentRow j w] } := by
  simp only [JobService.createJob, runs_bind, runs_raiseIf, runs_walletGetForUpdate, runs_jobCreate, runs_deductForJob,
    runs_delay, runs_pure, not_not, not_lt]
  refine ⟨?_, ?_⟩
  · intro hrun
    obtain ⟨_, _, ⟨h1, rfl⟩, w, _, ⟨⟨_, ⟨⟩, hw⟩, rfl⟩, _, _, ⟨h2, rfl⟩, _, _, ⟨h3, h4, h5, rfl⟩, _, _, ⟨h6, h7, rfl,
      rfl⟩, _, _, rfl, rfl, rfl⟩ := hrun
    have huser : w.user = employer.id := Table.pk_of_find hw
    refine ⟨h1, rfl, h3.2, h4, h5, w, hw, h6, h7, ?_⟩
    rw [huser]
  · intro hrun
    obtain ⟨h1, rfl, h3, h4, h5, w, hw, h6, h7, rfl⟩ := hrun
    have huser : w.user = employer.id := Table.pk_of_find hw
    refine ⟨(), _, ⟨h1, rfl⟩, w, _, ⟨⟨_, rfl, hw⟩, rfl⟩, (), _, ⟨h6, rfl⟩, (), _, ⟨⟨h7.1.1, h3⟩, h4, h5, rfl⟩, _, _,
      ⟨h6, h7, rfl, rfl⟩, (), _, rfl, rfl, ?_⟩
    rw [huser]

theorem runs_acceptJob {worker : User} {now : Time} {res : Job} :
    Runs store (JobService.acceptJob E jobId worker now) db res db' ↔
      ∃ j, Fetched E db jobId j ∧ worker.isWorker ∧ j.status = .created ∧ j.employer ≠ worker.id ∧
        (db.users.find worker.id).isSome ∧
        res = { j with worker := some worker.id, status := .accepted, acceptedAt := some now } ∧
        db' = { db with jobs := db.jobs.update j.id fun r =>
          { r with worker := some worker.id, status := .accepted, acceptedAt := some now } } := by
  simp only [JobService.acceptJob, runs_bind, runs_raiseIf, runs_jobGetNowait, runs_present, runs_set, runs_delay,
    runs_pure, not_not]
  refine ⟨?_, ?_⟩
  · intro hrun
    obtain ⟨_, _, ⟨h1, rfl⟩, j, _, ⟨hj, rfl⟩, _, _, ⟨h2, rfl⟩, _, _, ⟨h3, rfl⟩, _, _, ⟨h4, rfl⟩, _, _, rfl, _, _,
      rfl, rfl, rfl⟩ := hrun
    exact ⟨j, hj, h1, h2, h3, h4, rfl, rfl⟩
  · intro hrun
    obtain ⟨j, hj, h1, h2, h3, h4, rfl, rfl⟩ := hrun
    exact ⟨(), _, ⟨h1, rfl⟩, j, _, ⟨hj, rfl⟩, (), _, ⟨h2, rfl⟩, (), _, ⟨h3, rfl⟩, (), _, ⟨h4, rfl⟩, (), _, rfl, (), _,
      rfl, rfl, rfl⟩

theorem runs_startJob {worker : User} {now : Time} {res : Job} :
    Runs store (JobService.startJob E jobId worker now) db res db' ↔
      ∃ j, FetchedJoined E db jobId j ∧ j.worker = some worker.id ∧ j.status = .accepted ∧
        res = { j with status := .inProgress, startedAt := some now } ∧
        db' = { db with jobs := db.jobs.update j.id fun r =>
          { r with status := .inProgress, startedAt := some now } } := by
  simp only [JobService.startJob, runs_bind, runs_raiseIf, runs_jobGetOfWorker, runs_set, runs_pure, not_not]
  refine ⟨?_, ?_⟩
  · intro hrun
    obtain ⟨j, _, ⟨hj, h1, rfl⟩, _, _, ⟨h2, rfl⟩, _, _, rfl, rfl, rfl⟩ := hrun
    exact ⟨j, hj, h1, h2, rfl, rfl⟩
  · intro hrun
    obtain ⟨j, hj, h1, h2, rfl, rfl⟩ := hrun
    exact ⟨j, _, ⟨hj, h1, rfl⟩, (), _, ⟨h2, rfl⟩, (), _, rfl, rfl, rfl⟩

theorem runs_completeJob {employer : User} {now : Time} {res : Job} :
    Runs store (JobService.completeJob E jobId employer now) db res db' ↔
      ∃ j we worker ww, FetchedOuter E db jobId j ∧ employer.isEmployer ∧ j.employer = employer.id ∧
        j.status = .inProgress ∧ j.worker = some worker ∧ db.wallets.find j.employer = some we ∧
        db.wallets.find worker = some ww ∧ ReleaseChecks E j we ww ∧
        res = { j with status := .completed, completedAt := some now } ∧
        db' = { db with
          jobs := db.jobs.update j.id fun r => { r with status := .completed, completedAt := some now }
          wallets := (db.wallets.update j.employer fun r => { r with heldBalance := we.heldBalance - j.price }).update
            worker fun r => { r with
              balance := ww.balance + (calculateCommission E j.price none).2
              totalEarned := ww.totalEarned + (calculateCommission E j.price none).2 }
          ledger := db.ledger ++ [commissionRow E j we, releaseRow E j ww] } := by
  simp only [JobService.completeJob, runs_bind, runs_raiseIf, runs_jobGetForUpdate, runs_set, runs_releaseJobPayment,
    runs_delay, runs_pure, not_not, decide_eq_true_eq]
  refine ⟨?_, ?_⟩
  · intro hrun
    obtain ⟨_, _, ⟨h1, rfl⟩, j, _, ⟨hj, h2, rfl⟩, _, _, ⟨h3, rfl⟩, _, _, ⟨-, rfl⟩, _, _, rfl, _, _, ⟨we, worker, ww,
      hwe, hworker, hww, hc, rfl, rfl⟩, _, _, rfl, rfl, rfl⟩ := hrun
    have he : we.user = j.employer := Table.pk_of_find hwe
    have hw : ww.user = worker := Table.pk_of_find hww
    refine ⟨j, we, worker, ww, hj, h1, h2, h3, hworker, hwe, hww, ⟨hc.1, hc.2, hc.3, hc.4, hc.5, hc.6, hc.7⟩, rfl, ?_⟩
    rw [he, hw]; rfl
  · intro hrun
    obtain ⟨j, we, worker, ww, hj, h1, h2, h3, hworker, hwe, hww, hc, rfl, rfl⟩ := hrun
    have he : we.user = j.employer := Table.pk_of_find hwe
    have hw : ww.user = worker := Table.pk_of_find hww
    refine ⟨(), _, ⟨h1, rfl⟩, j, _, ⟨hj, h2, rfl⟩, (), _, ⟨h3, rfl⟩, (), _, ⟨by simp [hworker], rfl⟩, (), _, rfl, _, _,
      ⟨we, worker, ww, hwe, hworker, hww, ⟨hc.1, hc.2, hc.3, hc.4, hc.5, hc.6, hc.7⟩, rfl, rfl⟩, (), _, rfl, rfl, ?_⟩
    rw [he, hw]; rfl

/-- what refund_job checks -/
structure RefundChecks (j : Job) (w : Wallet) : Prop where
  amount : InBigint (min j.price w.heldBalance)
  before : InBigint w.balance
  after : InBigint (w.balance + min j.price w.heldBalance)
  held : InBigint (w.heldBalance - min j.price w.heldBalance)
  spent : InBigint (max 0 (w.totalSpent - min j.price w.heldBalance))

theorem runs_cancelJob {user : User} {reason : String} {now : Time} {res : Job} :
    Runs store (JobService.cancelJob E jobId user reason now) db res db' ↔
      ∃ j w, FetchedOuter E db jobId j ∧ (user.id = j.employer ∨ j.worker = some user.id) ∧ j.isOpen ∧
        db.wallets.find j.employer = some w ∧ RefundChecks j w ∧
        res = { j with status := .cancelled, cancelledAt := some now, cancelReason := reason } ∧
        db' = { db with
          jobs := db.jobs.update j.id fun r =>
            { r with status := .cancelled, cancelledAt := some now, cancelReason := reason }
          wallets := db.wallets.update j.employer fun r => { r with
            balance := w.balance + min j.price w.heldBalance
            heldBalance := w.heldBalance - min j.price w.heldBalance
            totalSpent := max 0 (w.totalSpent - min j.price w.heldBalance) }
          ledger := db.ledger ++ [refundRow j w] } := by
  have hopen : ∀ j : Job, j.canBeCancelled = true ↔ j.isOpen := fun j => by
    unfold Job.canBeCancelled Job.isOpen
    cases j.status <;> decide
  simp only [JobService.cancelJob, runs_bind, runs_raiseIf, runs_jobGetForUpdate, runs_set, runs_runIf, runs_refundJob,
    runs_pure, not_not, hopen]
  refine ⟨?_, ?_⟩
  · intro hrun
    obtain ⟨j, _, ⟨hj, -, rfl⟩, _, _, ⟨h1, rfl⟩, _, _, ⟨h2, rfl⟩, _, _, rfl, _, _, h3, rfl, rfl⟩ := hrun
    rcases h3 with ⟨-, t, w, hw, hc, rfl, rfl⟩ | ⟨hn, -⟩
    · have he : w.user = j.employer := Table.pk_of_find hw
      refine ⟨j, w, hj, h1, h2, hw, ⟨hc.1, hc.2.1, hc.2.2.1, hc.2.2.2.1, hc.2.2.2.2⟩, rfl, ?_⟩
      rw [he]; rfl
    · exact absurd h2 hn
  · intro hrun
    obtain ⟨j, w, hj, h1, h2, hw, hc, rfl, rfl⟩ := hrun
    have he : w.user = j.employer := Table.pk_of_find hw
    refine ⟨j, _, ⟨hj, trivial, rfl⟩, (), _, ⟨h1, rfl⟩, (), _, ⟨h2, rfl⟩, (), _, rfl, (), _,
      Or.inl ⟨h2, _, w, hw, ⟨hc.1, hc.2, hc.3, hc.4, hc.5⟩, rfl, rfl⟩, rfl, ?_⟩
    rw [he]; rfl

end Runs

end GigMarketplace
