/-
Settling an open escrow: cancel_job, start_job and complete_job on a job whose price is held.

The three lock their job through `select_for_update().select_related("employer", "worker")`. `Job.worker` is nullable,
so the query of cancel_job and complete_job is a LEFT OUTER JOIN under FOR UPDATE, and `Env.outerJoinLock` says what the
engine does with it. start_job's filter on the worker makes its query an INNER JOIN, which every engine locks.

Results:
- `never_settles`: where the engine refuses the outer join, as PostgreSQL does, no open job of any reachable state can
  be cancelled or completed, by anyone; its price stays held (`refused_held_mono`). A job can still be started;
- `start_settles`: an accepted job can be started, whatever the engine does;
- `cancel_settles`, `complete_settles`: where the engine returns the row, the escrow invariant carries both calls
  through: what remains is that the numbers fit their columns. The lock query is the one obstacle.
-/
import GigMarketplace.Escrow

namespace GigMarketplace

open GigMarketplace.Core

/-- what the parties of an open job may expect of the calls that name it -/
structure Settles (E : Env) (db : DB) (j : Job) (jobId : String) : Prop where
  cancel : ∀ (user : User) reason now, user.id = j.employer ∨ j.worker = some user.id →
    ∃ res db' w w', Runs store (JobService.cancelJob E jobId user reason now) db res db' ∧
      db.wallets.find j.employer = some w ∧ db'.wallets.find j.employer = some w' ∧ w'.balance = w.balance + j.price
  complete : j.status = .inProgress → ∀ (user : User) now, user.isEmployer → user.id = j.employer →
    ∃ res db', Runs store (JobService.completeJob E jobId user now) db res db'
  start : j.status = .accepted → ∀ (user : User) now, j.worker = some user.id →
    ∃ res db', Runs store (JobService.startJob E jobId user now) db res db'

section Refused

variable {E : Env} {db db' : DB} {op : Op}

/-- the query itself raises -/
theorem getForUpdate_refused (hE : E.outerJoinLock = .refused) {jobId : String} {id : Pk}
    (hid : E.py.int jobId = some id) (pick : Job → Bool) (missing : Exc) :
    exec store (Job.getForUpdate E jobId pick missing) db = .error .notSupported := by
  unfold Job.getForUpdate
  rw [hid]
  simp only [exec_bind]
  simp [Prog.raiseIf, hE, exec, Except.bind]

theorem cancel_raises (hE : E.outerJoinLock = .refused) {jobId : String} {id : Pk} (hid : E.py.int jobId = some id)
    (user : User) (reason : String) (now : Time) :
    exec store (JobService.cancelJob E jobId user reason now) db = .error .notSupported := by
  unfold JobService.cancelJob
  rw [exec_bind, getForUpdate_refused hE hid]
  rfl

theorem cancel_refused (hE : E.outerJoinLock = .refused) {jobId reason : String} {user : User} {now : Time}
    {res : Job} :
    ¬ Runs store (JobService.cancelJob E jobId user reason now) db res db' := fun h => by
  obtain ⟨j, w, hj, -⟩ := runs_cancelJob.1 h
  exact hj.outer hE

theorem complete_refused (hE : E.outerJoinLock = .refused) {jobId : String} {user : User} {now : Time} {res : Job} :
    ¬ Runs store (JobService.completeJob E jobId user now) db res db' := fun h => by
  obtain ⟨j, we, worker, ww, hj, -⟩ := runs_completeJob.1 h
  exact hj.outer hE

/-- **The held money is stuck**: whatever is called next, no held balance goes down again. -/
theorem refused_held_mono (hE : E.outerJoinLock = .refused) {u : Pk} {w : Wallet} (hw : db.wallets.find u = some w)
    (ops : List Op) : ∃ w', (run E db ops).wallets.find u = some w' ∧ w.heldBalance ≤ w'.heldBalance := by
  refine run_inv (P := fun db => ∃ w', db.wallets.find u = some w' ∧ w.heldBalance ≤ w'.heldBalance)
    (fun db op db' ⟨w', hw', hle⟩ hs => ?_) ⟨w, hw, le_rfl⟩ ops
  cases hs with
  | @createJob id employer data now we hrole hprice huser hfresh hwe hcover hcols =>
    by_cases hu : employer.id = u
    · subst hu
      rw [hwe] at hw'
      cases hw'
      have hpos := data.price_min
      exact ⟨_, Table.find_update_self hwe rfl, by simp only; omega⟩
    · exact ⟨w', (Table.find_update_ne hu).trans hw', hle⟩
  | acceptJob => exact ⟨w', hw', hle⟩
  | initiateDeposit => exact ⟨w', hw', hle⟩
  | @confirmDeposit v externalId r wr hid hr hstatus hwr hlimits hcols =>
    by_cases hu : r.wallet = u
    · subst hu
      rw [hwr] at hw'
      cases hw'
      exact ⟨_, Table.find_update_self hwr rfl, hle⟩
    · exact ⟨w', (Table.find_update_ne hu).trans hw', hle⟩
  | startJob => exact ⟨w', hw', hle⟩
  | completeJob hj => exact absurd hE hj.outer
  | cancelJob hj => exact absurd hE hj.outer

end Refused

/-! ## Starting -/

section Started

variable {E : Env} {db : DB} {j : Job} {jobId : String}

theorem Inv.fetchedJoined (h : Inv E db) (hid : E.py.int jobId = some j.id) (hj : db.jobs.find j.id = some j) :
    FetchedJoined E db jobId j where
  key := hid
  row := hj
  employer := (h.linked.jobs j (Table.mem_of_find hj)).employer
  worker := fun w hw => ((h.linked.jobs j (Table.mem_of_find hj)).worker w hw).1

/-- **An accepted job can be started** by its worker. -/
theorem start_settles (h : Inv E db) (hid : E.py.int jobId = some j.id) (hj : db.jobs.find j.id = some j)
    (hstatus : j.status = .accepted) {user : User} (hworker : j.worker = some user.id) (now : Time) :
    ∃ res db', Runs store (JobService.startJob E jobId user now) db res db' :=
  ⟨_, _, runs_startJob.2 ⟨j, h.fetchedJoined hid hj, hworker, hstatus, rfl, rfl⟩⟩

end Started

/-- **No open escrow can be settled** where FOR UPDATE is refused on the nullable side of an outer join: neither
cancel_job nor complete_job succeeds, for anyone, and whatever is called later, the employer's wallet still holds the
price. An accepted job can still be started by its worker, and gets no further. -/
theorem never_settles (E : Env) (hE : E.outerJoinLock = .refused) (users : Table User) (ops : List Op) (j : Job)
    (hj : j ∈ (run E (init users) ops).jobs.rows) (hopen : j.isOpen) (jobId : String) :
    ¬ Settles E (run E (init users) ops) j jobId ∧
      (∀ user reason now res db',
        ¬ Runs store (JobService.cancelJob E jobId user reason now) (run E (init users) ops) res db') ∧
      (∀ user now res db', ¬ Runs store (JobService.completeJob E jobId user now) (run E (init users) ops) res db') ∧
      (E.py.int jobId = some j.id → j.status = .accepted → ∀ (user : User) now, j.worker = some user.id →
        ∃ res db', Runs store (JobService.startJob E jobId user now) (run E (init users) ops) res db') ∧
      ∀ ops', ∃ w, (run E (init users) (ops ++ ops')).wallets.find j.employer = some w ∧ j.price ≤ w.heldBalance := by
  have hinv := inv_run E users ops
  refine ⟨fun h => ?_, fun user reason now res db' => cancel_refused hE, fun user now res db' => complete_refused hE,
    fun hid hstatus user now hworker => start_settles hinv hid (Table.find_of_mem hj) hstatus hworker now,
    fun ops' => ?_⟩
  · obtain ⟨res, db', w, w', hrun, -⟩ := h.cancel ⟨j.employer, UserRole.employer.value⟩ "" 0 (Or.inl rfl)
    exact cancel_refused hE hrun
  · have hsome : ((run E (init users) ops).wallets.find j.employer).isSome := by
      rw [hinv.linked.wallets]
      exact (hinv.linked.jobs j hj).employer
    obtain ⟨w, hw⟩ := Option.isSome_iff_exists.1 hsome
    obtain ⟨hheld, -⟩ := hinv.covered (Table.find_of_mem hj) hopen hw
    obtain ⟨w', hw', hle⟩ := refused_held_mono hE hw ops'
    exact ⟨w', by rw [run_append]; exact hw', hheld.trans hle⟩

/-! ## The other two where the row is returned -/

section Returned

variable {E : Env} {db : DB} {j : Job} {jobId : String}

theorem Inv.fetched (h : Inv E db) (hE : E.outerJoinLock = .returned) (hid : E.py.int jobId = some j.id)
    (hj : db.jobs.find j.id = some j) : FetchedOuter E db jobId j where
  toFetchedJoined := h.fetchedJoined hid hj
  outer := by simp [hE]

/-- **An open job can be cancelled**, and its price goes back: only the range of the employer's balance can be in the
way. -/
theorem cancel_settles (h : Inv E db) (hr : Ranged db.wallets) (hE : E.outerJoinLock = .returned)
    (hid : E.py.int jobId = some j.id) (hj : db.jobs.find j.id = some j) (hopen : j.isOpen) {user : User}
    (hcaller : user.id = j.employer ∨ j.worker = some user.id) (reason : String) (now : Time) {w : Wallet}
    (hw : db.wallets.find j.employer = some w) (hfit : w.balance + j.price ≤ bigintMax) :
    ∃ res db' w', Runs store (JobService.cancelJob E jobId user reason now) db res db' ∧
      db'.wallets.find j.employer = some w' ∧ w'.balance = w.balance + j.price := by
  obtain ⟨hheld, hspent⟩ := h.covered hj hopen hw
  have hmin : min j.price w.heldBalance = j.price := min_eq_left hheld
  have hprice := (h.linked.jobs j (Table.mem_of_find hj)).price
  have hbalance := hr _ _ hw .balance
  have hheldr := hr _ _ hw .heldBalance
  have hspentr := hr _ _ hw .totalSpent
  simp only [Wallet.col, InBigint] at hbalance hheldr hspentr
  have hcols : RefundChecks j w := by
    refine ⟨?_, hbalance, ?_, ?_, ?_⟩ <;> rw [hmin]
    · exact ⟨by omega, by omega⟩
    · exact ⟨by omega, hfit⟩
    · exact ⟨by omega, by omega⟩
    · rw [max_eq_right (by omega)]; exact ⟨by omega, by omega⟩
  refine ⟨_, _, _, runs_cancelJob.2 ⟨j, w, h.fetched hE hid hj, hcaller, hopen, hw, hcols, rfl, rfl⟩,
    Table.find_update_self hw rfl, ?_⟩
  simp only [hmin]

/-- **A job in progress can be completed**: what remains are the ranges of the commission and of the worker's
columns. -/
theorem complete_settles (h : Inv E db) (hr : Ranged db.wallets) (hE : E.outerJoinLock = .returned)
    (hid : E.py.int jobId = some j.id) (hj : db.jobs.find j.id = some j) (hstatus : j.status = .inProgress)
    {user : User} (hrole : user.isEmployer) (huser : user.id = j.employer) (now : Time) {worker : Pk} {ww : Wallet}
    (hworker : j.worker = some worker) (hww : db.wallets.find worker = some ww)
    (hfee : 0 ≤ (calculateCommission E j.price none).1 ∧ (calculateCommission E j.price none).1 ≤ j.price)
    (hfit : ww.balance + j.price ≤ bigintMax ∧ ww.totalEarned + j.price ≤ bigintMax) :
    ∃ res db', Runs store (JobService.completeJob E jobId user now) db res db' := by
  have hok := h.linked.jobs j (Table.mem_of_find hj)
  have hsome : (db.wallets.find j.employer).isSome := by rw [h.linked.wallets]; exact hok.employer
  obtain ⟨we, hwe⟩ := Option.isSome_iff_exists.1 hsome
  obtain ⟨hheld, -⟩ := h.covered hj (Or.inr (Or.inr hstatus)) hwe
  have hadd := calculateCommission_add E j.price none
  have hheldr := hr _ _ hwe .heldBalance
  have hbalance := hr _ _ hwe .balance
  have hwbalance := hr _ _ hww .balance
  have hwearned := hr _ _ hww .totalEarned
  simp only [Wallet.col, InBigint] at hheldr hbalance hwbalance hwearned
  have hcols : ReleaseChecks E j we ww :=
    ⟨⟨by omega, by omega⟩, ⟨by omega, by omega⟩, hbalance, ⟨by omega, by omega⟩, hwbalance, ⟨by omega, by omega⟩,
      ⟨by omega, by omega⟩⟩
  exact ⟨_, _, runs_completeJob.2 ⟨j, we, worker, ww, h.fetched hE hid hj, hrole, huser.symm, hstatus, hworker, hwe,
    hww, hcols, rfl, rfl⟩⟩

end Returned

/-! ## A stuck job -/

def demoRefused : Env := { demoEnv with outerJoinLock := .refused }

def demoJobPosted : Job := newJob 1 demoEmployer demoJob 0

/-- The employer of a job just posted cannot cancel it. -/
theorem posted_job_stuck :
    demoJobPosted ∈ (run demoRefused (init demoUsers) demoPosted).jobs.rows ∧ demoJobPosted.isOpen ∧
      exec store (JobService.cancelJob demoRefused "1" demoEmployer "Changed plans" 1)
        (run demoRefused (init demoUsers) demoPosted) = .error .notSupported ∧
      ¬ Settles demoRefused (run demoRefused (init demoUsers) demoPosted) demoJobPosted "1" := by
  refine ⟨by decide +kernel, by decide, cancel_raises rfl (show demoPy.int "1" = some 1 by decide) .., fun h => ?_⟩
  obtain ⟨res, db', w, w', hrun, -⟩ := h.cancel demoEmployer "Changed plans" 1 (Or.inl rfl)
  exact cancel_refused rfl hrun

/-- the job is accepted -/
def demoTaken : List Op := demoPosted ++ [.acceptJob "1" demoWorker 1]

def demoJobTaken : Job := { demoJobPosted with worker := some 2, status := .accepted, acceptedAt := some 1 }

/-- The accepted job can be neither cancelled nor completed; its worker can start it. -/
theorem never_settles_demo :
    ¬ Settles demoRefused (run demoRefused (init demoUsers) demoTaken) demoJobTaken "1" ∧
      (∀ user reason now res db',
        ¬ Runs store (JobService.cancelJob demoRefused "1" user reason now)
          (run demoRefused (init demoUsers) demoTaken) res db') ∧
      ∃ res db', Runs store (JobService.startJob demoRefused "1" demoWorker 2)
        (run demoRefused (init demoUsers) demoTaken) res db' := by
  obtain ⟨hsettles, hcancel, -, hstart, -⟩ := never_settles demoRefused rfl demoUsers demoTaken demoJobTaken
    (by decide +kernel) (by decide) "1"
  exact ⟨hsettles, hcancel, hstart (by decide) rfl demoWorker 2 rfl⟩

end GigMarketplace
