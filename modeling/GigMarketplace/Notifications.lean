/-
Tasks of `apps/notifications/tasks.py`, enqueued by JobService.

`create_job`, `accept_job` and `complete_job` call `notify_..._task.delay(str(job.id))` as their last statement but one;
what follows is the cache invalidation, which swallows its exceptions, and the commit. The calls are the transactions of
`Jobs.lean`, at the granularity of one statement, and may be rolled back at any point (a lost connection, a constraint
that is checked at the commit). A worker handles a task of the queue at any time; it handles it again after a failure
(`self.retry`) or a redelivery. A task imports NotificationService and then gets its job from the database.
`importable` says whether that import succeeds (as the file stands, the f-strings in `notify_job_accepted` and
`notify_job_completed` do not parse); when it raises, the task reads nothing.

Left out: what NotificationService does with the job.

Results:
- `announcing`: what a task announces is so after the commit of its sender, was not so before, and stays so;
- `notify_iff`: in every run, every task that reads its job finds the announced transition made, and no task is
  enqueued for a transaction that is rolled back, exactly if no call is rolled back after its enqueue and no task runs
  before the commit;
- `notify_too_early`: a task that runs before the commit, and one that is left after a rollback.
-/
import GigMarketplace.ChatSignals
import GigMarketplace.Core.Outbox
import GigMarketplace.Lifecycle

namespace GigMarketplace

open GigMarketplace.Core GigMarketplace.Core.Prog

/-! ## Tasks -/

/-- the job as its task announces it, or later -/
def Task.Shows : Task → DB → Prop
  | .notifyNewJob id, db => (db.jobs.find id).isSome
  | .notifyJobAccepted id, db => ∃ job, db.jobs.find id = some job ∧ job.worker ≠ none ∧ job.status ≠ .created
  | .notifyJobCompleted id, db => ∃ job, db.jobs.find id = some job ∧ job.status = .completed

/-- the task that a call enqueues for the job it returns -/
def JobCall.task (call : JobCall) (job : Job) : Option Task :=
  match call.op with
  | .createJob .. => some (.notifyNewJob job.id)
  | .acceptJob .. => some (.notifyJobAccepted job.id)
  | .startJob .. => none
  | .completeJob .. => some (.notifyJobCompleted job.id)
  | .cancelJob .. => none

/-! ## The services -/

section Services

variable {E : Env} {w : Wallet} {j : Job}

theorem silent_save (w : Wallet) (fields : List WalletField) : (w.save fields).Silent :=
  silent_bind (silent_raiseIf _ _) fun _ => silent_set _

theorem silent_transactionCreate (t : Transaction) : t.create.Silent :=
  silent_bind (silent_raiseIf _ _) fun _ => silent_bind (silent_record _) fun _ => silent_pure _

theorem silent_walletGetForUpdate (user : Option Pk) : (Wallet.getForUpdate user).Silent := by
  cases user with
  | none => exact silent_raise _
  | some u => exact silent_selectForUpdate _ _ _

theorem silent_deductForJob (w : Wallet) (j : Job) : (WalletService.deductForJob w j).Silent :=
  silent_bind (silent_raiseIf _ _) fun _ => silent_bind (silent_save _ _) fun _ => silent_transactionCreate _

theorem silent_releaseJobPayment (E : Env) (j : Job) : (WalletService.releaseJobPayment E j).Silent := by
  refine silent_bind (silent_walletGetForUpdate _) fun we => silent_bind (silent_walletGetForUpdate _) fun ww => ?_
  refine silent_bind (silent_save _ _) fun _ => silent_bind (silent_transactionCreate _) fun _ => ?_
  refine silent_bind (silent_save _ _) fun _ => silent_bind (silent_transactionCreate _) fun _ => ?_
  exact silent_pure _

theorem silent_refundJob (j : Job) : (WalletService.refundJob j).Silent := by
  refine silent_bind (silent_walletGetForUpdate _) fun w => ?_
  exact silent_bind (silent_save _ _) fun _ => silent_transactionCreate _

theorem silent_jobCreate (j : Job) : j.create.Silent :=
  silent_bind (silent_raiseIf _ _) fun _ => silent_bind (silent_present _ _) fun _ => silent_create _ _

theorem silent_userLock (id : Pk) (busy : Option Exc) (miss : Exc) : (User.lock id busy miss).Silent :=
  silent_selectForUpdate _ _ _

theorem silent_jobGetNowait (E : Env) (jobId : String) : (Job.getNowait E jobId).Silent := by
  unfold Job.getNowait
  cases E.py.int jobId with
  | none => exact silent_raise _
  | some id =>
    refine silent_bind (silent_selectForUpdate _ _ _) fun job => ?_
    exact silent_bind (silent_userLock _ _ _) fun _ => silent_pure _

theorem silent_lockJoined (id : Pk) (pick : Job → Bool) (missing : Exc) : (Job.lockJoined id pick missing).Silent := by
  refine silent_bind (silent_selectForUpdate _ _ _) fun job => silent_bind (silent_userLock _ _ _) fun _ => ?_
  exact silent_bind (silent_runIf (silent_userLock _ _ _)) fun _ => silent_pure _

theorem silent_jobGetForUpdate (E : Env) (jobId : String) (pick : Job → Bool) (missing : Exc) :
    (Job.getForUpdate E jobId pick missing).Silent := by
  unfold Job.getForUpdate
  cases E.py.int jobId with
  | none => exact silent_raise _
  | some id => exact silent_bind (silent_raiseIf _ _) fun _ => silent_lockJoined _ _ _

theorem silent_jobGetOfWorker (E : Env) (jobId : String) (worker : User) (missing : Exc) :
    (Job.getOfWorker E jobId worker missing).Silent := by
  unfold Job.getOfWorker
  cases E.py.int jobId with
  | none => exact silent_raise _
  | some id => exact silent_lockJoined _ _ _

/-- a call enqueues nothing but its task, when all else is done -/
theorem announces_prog (E : Env) (call : JobCall) : (call.prog E).Announces call.task := by
  obtain ⟨op, now, roomId, messageId⟩ := call
  cases op with
  | createJob id employer data =>
    refine announces_bind (silent_raiseIf _ _) fun _ => announces_bind (silent_walletGetForUpdate _) fun wallet => ?_
    refine announces_bind (silent_raiseIf _ _) fun _ => announces_bind (silent_jobCreate _) fun _ => ?_
    exact announces_bind (silent_deductForJob _ _) fun _ => announces_delay rfl
  | acceptJob jobId worker =>
    refine announces_bind (silent_raiseIf _ _) fun _ => announces_bind (silent_jobGetNowait _ _) fun job => ?_
    refine announces_bind (silent_raiseIf _ _) fun _ => announces_bind (silent_raiseIf _ _) fun _ => ?_
    refine announces_bind (silent_present _ _) fun _ => announces_bind (silent_set _) fun _ => ?_
    exact announces_delay rfl
  | startJob jobId worker =>
    refine announces_bind (silent_jobGetOfWorker _ _ _ _) fun job => announces_bind (silent_raiseIf _ _) fun _ => ?_
    exact announces_bind (silent_set _) fun _ => silent_pure _
  | completeJob jobId employer =>
    refine announces_bind (silent_raiseIf _ _) fun _ => announces_bind (silent_jobGetForUpdate _ _ _ _) fun job => ?_
    refine announces_bind (silent_raiseIf _ _) fun _ => announces_bind (silent_raiseIf _ _) fun _ => ?_
    refine announces_bind (silent_set _) fun _ => announces_bind (silent_releaseJobPayment _ _) fun _ => ?_
    exact announces_delay rfl
  | cancelJob jobId user reason =>
    refine announces_bind (silent_jobGetForUpdate _ _ _ _) fun job => announces_bind (silent_raiseIf _ _) fun _ => ?_
    refine announces_bind (silent_raiseIf _ _) fun _ => announces_bind (silent_set _) fun _ => ?_
    exact announces_bind (silent_runIf (silent_refundJob _)) fun _ => silent_pure _

end Services

/-! ## What a task announces -/

section Announcing

variable {E : Env} {db db' : DB} {job : Job} {call : JobCall} {task : Task}

theorem not_shows_before (h : Runs store (call.prog E) db job db') (htask : call.task job = some task) :
    ¬ task.Shows db := by
  obtain ⟨op, now, roomId, messageId⟩ := call
  cases op with
  | startJob jobId worker => cases htask
  | cancelJob jobId user reason => cases htask
  | createJob id employer data =>
    cases htask
    obtain ⟨-, rfl, -, -, hfresh, -⟩ := runs_createJob.1 h
    change ¬ (db.jobs.find id).isSome = true
    rw [hfresh]
    simp
  | acceptJob jobId worker =>
    cases htask
    obtain ⟨j, hj, -, hstatus, -, -, rfl, -⟩ := runs_acceptJob.1 h
    rintro ⟨j', hj', -, hne⟩
    rw [show _ = some j from hj.row] at hj'
    cases hj'
    exact hne hstatus
  | completeJob jobId employer =>
    cases htask
    obtain ⟨j, we, worker, ww, hj, -, -, hstatus, -, -, -, -, rfl, -⟩ := runs_completeJob.1 h
    rintro ⟨j', hj', hdone⟩
    rw [show _ = some j from hj.row] at hj'
    cases hj'
    rw [hstatus] at hdone
    cases hdone

theorem shows_after (h : Runs store (call.prog E) db job db') (htask : call.task job = some task) : task.Shows db' := by
  have hrow : db'.jobs.find job.id = some job := ((saved_cases h).table job.id).trans (if_pos rfl)
  obtain ⟨op, now, roomId, messageId⟩ := call
  cases op with
  | startJob jobId worker => cases htask
  | cancelJob jobId user reason => cases htask
  | createJob id employer data =>
    cases htask
    change (db'.jobs.find job.id).isSome = true
    rw [hrow]
    rfl
  | acceptJob jobId worker =>
    cases htask
    obtain ⟨j, -, -, -, -, -, rfl, -⟩ := runs_acceptJob.1 h
    exact ⟨_, hrow, by simp, by simp⟩
  | completeJob jobId employer =>
    cases htask
    obtain ⟨j, we, worker, ww, -, -, -, -, -, -, -, -, rfl, -⟩ := runs_completeJob.1 h
    exact ⟨_, hrow, rfl⟩

/-- the call as one of the operations -/
def JobCall.toOp (call : JobCall) : Op :=
  match call.op with
  | .createJob id employer data => .createJob id employer data call.now
  | .acceptJob jobId worker => .acceptJob jobId worker call.now
  | .startJob jobId worker => .startJob jobId worker call.now
  | .completeJob jobId employer => .completeJob jobId employer call.now
  | .cancelJob jobId user reason => .cancelJob jobId user reason call.now

theorem JobCall.step (h : Runs store (call.prog E) db job db') : Step E db call.toOp db' := by
  apply (runs_prog (u := ())).1
  obtain ⟨op, now, roomId, messageId⟩ := call
  cases op with
  | createJob id employer data => exact runs_discard.2 ⟨job, h⟩
  | acceptJob jobId worker => exact runs_discard.2 ⟨job, h⟩
  | startJob jobId worker => exact runs_discard.2 ⟨job, h⟩
  | completeJob jobId employer => exact runs_discard.2 ⟨job, h⟩
  | cancelJob jobId user reason => exact runs_discard.2 ⟨job, h⟩

/-- a job with a worker keeps him, a completed job stays so -/
theorem moved_later {old new : Job} (h : new = old ∨ old.Move new) :
    (old.status ≠ .created → new.status ≠ .created ∧ new.worker = old.worker) ∧
      (old.status = .completed → new.status = .completed) := by
  rcases h with rfl | hmove
  · exact ⟨fun hstatus => ⟨hstatus, rfl⟩, fun hdone => hdone⟩
  · refine ⟨fun hstatus => ⟨hmove.left_created, hmove.worker hstatus⟩, fun hdone => ?_⟩
    have hopen := hmove.isOpen
    simp [Job.isOpen, hdone] at hopen

theorem shows_stays (h : Runs store (call.prog E) db job db') (hshows : task.Shows db) : task.Shows db' := by
  cases task with
  | notifyNewJob id =>
    obtain ⟨old, hold⟩ := Option.isSome_iff_exists.1 hshows
    obtain ⟨new, hnew, -⟩ := (JobCall.step h).job_kept hold
    change (db'.jobs.find id).isSome = true
    rw [hnew]
    rfl
  | notifyJobAccepted id =>
    obtain ⟨old, hold, hworker, hstatus⟩ := hshows
    obtain ⟨new, hnew, hmoved⟩ := (JobCall.step h).job_kept hold
    obtain ⟨hstatus', hworker'⟩ := (moved_later hmoved).1 hstatus
    exact ⟨new, hnew, by rw [hworker']; exact hworker, hstatus'⟩
  | notifyJobCompleted id =>
    obtain ⟨old, hold, hdone⟩ := hshows
    obtain ⟨new, hnew, hmoved⟩ := (JobCall.step h).job_kept hold
    exact ⟨new, hnew, (moved_later hmoved).2 hdone⟩

theorem announcing (E : Env) : Announcing store (JobCall.prog E) JobCall.task Task.Shows where
  last := announces_prog E
  fresh _ _ _ _ _ h htask := not_shows_before h htask
  shown _ _ _ _ _ h htask := shows_after h htask
  stays _ _ _ _ _ h hshows := shows_stays h hshows

end Announcing

/-! ## The law -/

abbrev Notifier := Mail gig DB Job JobCall

abbrev NotifierEvent := MailEvent JobCall

/-- the calls and the worker, from a database with no call under way and nothing in the queue -/
def notifierRun (E : Env) (db : DB) (evs : List NotifierEvent) : Notifier :=
  (Mail.init db).run store (JobCall.prog E) evs

/-- **Notifications speak of committed states**, and none of a call that was rolled back, exactly if no call is rolled
back after it has enqueued its task and no task runs before the commit of its call. -/
theorem notify_iff (E : Env) (importable : Bool) (db : DB) (evs : List NotifierEvent) :
    Mail.Always store (JobCall.prog E) (Mail.Truthful Task.Shows (importable = true)) (Mail.init db) evs ↔
      Mail.Always store (JobCall.prog E) (Mail.Timely (importable = true)) (Mail.init db) evs :=
  truthful_iff_timely (announcing E) db evs

/-- a create_job that has enqueued its task and not committed -/
def demoEnqueued : List NotifierEvent := .tx (.start 0 demoCreated) :: List.replicate 6 (.tx (.step 0))

theorem letters_enqueued :
    (notifierRun demoEnv demoBackend.db demoEnqueued).letters.map (fun l => (l.msg, l.fate)) =
      [(.notifyNewJob 1, .pending 0)] := by
  decide +kernel

theorem jobs_enqueued : (notifierRun demoEnv demoBackend.db demoEnqueued).conf.db.jobs.find 1 = none := by
  decide +kernel

/-- the worker runs at once, and there is no such job; the call is rolled back, and its task stays in the queue -/
theorem notify_too_early :
    ¬ Mail.Always store (JobCall.prog demoEnv) (Mail.Truthful Task.Shows (true = true)) (Mail.init demoBackend.db)
        (demoEnqueued ++ [.deliver 0]) ∧
      ¬ Mail.Always store (JobCall.prog demoEnv) (Mail.Truthful Task.Shows (false = true)) (Mail.init demoBackend.db)
        (demoEnqueued ++ [.tx (.kill 0)]) := by
  obtain ⟨l, hletters, hl⟩ := List.map_eq_singleton_iff.1 letters_enqueued
  have hmsg : l.msg = .notifyNewJob 1 := congrArg Prod.fst hl
  have hfate : l.fate = .pending 0 := congrArg Prod.snd hl
  constructor
  · intro h
    obtain ⟨-, htrue, -⟩ := (always_append store (JobCall.prog demoEnv)).1 h
    have hshows : Task.Shows l.msg (notifierRun demoEnv demoBackend.db demoEnqueued).conf.db := by
      apply htrue rfl l
      change (notifierRun demoEnv demoBackend.db demoEnqueued).letters[0]? = some l
      rw [hletters]
      rfl
    rw [hmsg] at hshows
    change ((notifierRun demoEnv demoBackend.db demoEnqueued).conf.db.jobs.find 1).isSome = true at hshows
    rw [jobs_enqueued] at hshows
    cases hshows
  · intro h
    obtain ⟨-, htrue, -⟩ := (always_append store (JobCall.prog demoEnv)).1 h
    apply htrue (l.settle 0 .lost)
    · change l.settle 0 .lost ∈ (notifierRun demoEnv demoBackend.db demoEnqueued).letters.map (Letter.settle 0 .lost)
      rw [hletters]
      exact List.mem_singleton_self _
    · rw [Letter.settle, if_pos hfate]

end GigMarketplace
