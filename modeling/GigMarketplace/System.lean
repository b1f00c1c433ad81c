/-
The backend as a system: the operations of JobService and DepositService as the calls a run is made of.

`run` makes calls one after another; a call that raises is rolled back and leaves the database as it was. The
interleaved system is `Machine` of `Core/RowLock.lean` with the same programs (`Op.prog`).

`Step` says once, for each operation, under which conditions it succeeds and what it then writes (`runs_prog`: exactly
this). Every invariant of the development is proved from `Step`, by `run_inv` for calls one after another and by
`machine_inv` for interleaved transactions.

Callers: `employer`, `worker` and `user` are whatever the request carries, also users that are in no table; their role
is the one the request's user object has.
-/
import GigMarketplace.Core.History
import GigMarketplace.Jobs

namespace GigMarketplace

open GigMarketplace.Core GigMarketplace.Core.Prog

inductive Op where
  | createJob (id : Pk) (employer : User) (data : JobData) (now : Time)
  | acceptJob (jobId : String) (worker : User) (now : Time)
  | startJob (jobId : String) (worker : User) (now : Time)
  | completeJob (jobId : String) (employer : User) (now : Time)
  | cancelJob (jobId : String) (user : User) (reason : String) (now : Time)
  | initiateDeposit (id : Pk) (user : User) (amount : ℤ) (providerName uuidHex : String)
  | confirmDeposit (paymentRequestId : Json) (externalId : String)

/-- a call whose result the caller drops -/
def discard {A : Type} (p : Tx A) : Tx Unit := do
  let _ ← p
  return ()

def Op.prog (E : Env) : Op → Tx Unit
  | .createJob id employer data now => discard (JobService.createJob id employer data now)
  | .acceptJob jobId worker now => discard (JobService.acceptJob E jobId worker now)
  | .startJob jobId worker now => discard (JobService.startJob E jobId worker now)
  | .completeJob jobId employer now => discard (JobService.completeJob E jobId employer now)
  | .cancelJob jobId user reason now => discard (JobService.cancelJob E jobId user reason now)
  | .initiateDeposit id user amount providerName uuidHex =>
    discard (DepositService.initiateDeposit E id user amount providerName uuidHex)
  | .confirmDeposit paymentRequestId externalId => discard (DepositService.confirmDeposit E paymentRequestId externalId)

def step (E : Env) (db : DB) (op : Op) : DB := call store (Op.prog E) db op

def run (E : Env) (db : DB) (ops : List Op) : DB := ops.foldl (step E) db

/-! ## What an operation does -/

inductive Step (E : Env) (db : DB) : Op → DB → Prop where
  | createJob {id : Pk} {employer : User} {data : JobData} {now : Time} {w : Wallet} (hrole : employer.isEmployer)
      (hprice : data.price ≤ integerMax) (huser : (db.users.find employer.id).isSome)
      (hfresh : db.jobs.find id = none) (hw : db.wallets.find employer.id = some w) (hcover : data.price ≤ w.balance)
      (hcols : InBigint data.price ∧ InBigint w.balance ∧ InBigint (w.balance - data.price) ∧
        InBigint (w.heldBalance + data.price) ∧ InBigint (w.totalSpent + data.price)) :
      Step E db (.createJob id employer data now) { db with
        jobs := db.jobs.insert (newJob id employer data now)
        wallets := db.wallets.update employer.id fun r => { r with
          balance := w.balance - data.price
          heldBalance := w.heldBalance + data.price
          totalSpent := w.totalSpent + data.price }
        ledger := db.ledger ++ [paymentRow (newJob id employer data now) w] }
  | acceptJob {jobId : String} {worker : User} {now : Time} {j : Job} (hj : Fetched E db jobId j)
      (hrole : worker.isWorker) (hstatus : j.status = .created) (hown : j.employer ≠ worker.id)
      (huser : (db.users.find worker.id).isSome) :
      Step E db (.acceptJob jobId worker now) { db with
        jobs := db.jobs.update j.id fun r =>
          { r with worker := some worker.id, status := .accepted, acceptedAt := some now } }
  | startJob {jobId : String} {worker : User} {now : Time} {j : Job} (hj : FetchedJoined E db jobId j)
      (hworker : j.worker = some worker.id) (hstatus : j.status = .accepted) :
      Step E db (.startJob jobId worker now) { db with
        jobs := db.jobs.update j.id fun r => { r with status := .inProgress, startedAt := some now } }
  | completeJob {jobId : String} {employer : User} {now : Time} {j : Job} {we ww : Wallet} {worker : Pk}
      (hj : FetchedOuter E db jobId j) (hrole : employer.isEmployer) (hemployer : j.employer = employer.id)
      (hstatus : j.status = .inProgress) (hworker : j.worker = some worker)
      (hwe : db.wallets.find j.employer = some we) (hww : db.wallets.find worker = some ww)
      (hcols : ReleaseChecks E j we ww) :
      Step E db (.completeJob jobId employer now) { db with
        jobs := db.jobs.update j.id fun r => { r with status := .completed, completedAt := some now }
        wallets := (db.wallets.update j.employer fun r => { r with heldBalance := we.heldBalance - j.price }).update
          worker fun r => { r with
            balance := ww.balance + (calculateCommission E j.price none).2
            totalEarned := ww.totalEarned + (calculateCommission E j.price none).2 }
        ledger := db.ledger ++ [commissionRow E j we, releaseRow E j ww] }
  | cancelJob {jobId : String} {user : User} {reason : String} {now : Time} {j : Job} {w : Wallet}
      (hj : FetchedOuter E db jobId j) (hcaller : user.id = j.employer ∨ j.worker = some user.id) (hopen : j.isOpen)
      (hw : db.wallets.find j.employer = some w) (hcols : RefundChecks j w) :
      Step E db (.cancelJob jobId user reason now) { db with
        jobs := db.jobs.update j.id fun r =>
          { r with status := .cancelled, cancelledAt := some now, cancelReason := reason }
        wallets := db.wallets.update j.employer fun r => { r with
          balance := w.balance + min j.price w.heldBalance
          heldBalance := w.heldBalance - min j.price w.heldBalance
          totalSpent := max 0 (w.totalSpent - min j.price w.heldBalance) }
        ledger := db.ledger ++ [refundRow j w] }
  | initiateDeposit {id : Pk} {user : User} {amount : ℤ} {providerName uuidHex : String} {p : PaymentProvider}
      (hlimits : E.minDeposit ≤ amount ∧ amount ≤ E.maxDeposit) (hw : (db.wallets.find user.id).isSome)
      (hcols : InBigint amount) (hfresh : db.requests.find id = none)
      (hp : getPaymentProvider E providerName = some p) :
      Step E db (.initiateDeposit id user amount providerName uuidHex) { db with
        requests := db.requests.insert (newRequest E id user.id amount providerName uuidHex p) }
  | confirmDeposit {v : Json} {externalId : String} {r : PaymentRequest} {w : Wallet}
      (hid : lookupId E.py v = .ok (some r.id)) (hr : db.requests.find r.id = some r) (hstatus : r.status = .pending)
      (hw : db.wallets.find r.wallet = some w) (hlimits : E.minDeposit ≤ r.amount ∧ r.amount ≤ E.maxDeposit)
      (hcols : InBigint r.amount ∧ InBigint w.balance ∧ InBigint (w.balance + r.amount)) :
      Step E db (.confirmDeposit v externalId) { db with
        wallets := db.wallets.update r.wallet fun x => { x with balance := w.balance + r.amount }
        requests := db.requests.update r.id fun x => { x with status := .completed }
        ledger := db.ledger ++ [confirmRow r w externalId] }

section Runs

variable {E : Env} {db db' : DB}

theorem runs_discard {A : Type} {p : Tx A} {u : Unit} :
    Runs store (discard p) db u db' ↔ ∃ a, Runs store p db a db' := by
  simp only [discard, runs_bind, runs_pure]
  refine ⟨?_, ?_⟩
  · intro hrun
    obtain ⟨a, _, h, -, rfl⟩ := hrun
    exact ⟨a, h⟩
  · intro hrun
    obtain ⟨a, h⟩ := hrun
    exact ⟨a, _, h, trivial, rfl⟩

/-- **What an operation does**, exactly. -/
theorem runs_prog {op : Op} {u : Unit} : Runs store (op.prog E) db u db' ↔ Step E db op db' := by
  cases op with
  | createJob id employer data now =>
    refine runs_discard.trans ⟨fun ⟨j, h⟩ => ?_, fun h => ?_⟩
    · obtain ⟨h1, rfl, h2, h3, h4, w, hw, h5, h6, rfl⟩ := runs_createJob.1 h
      exact .createJob h1 h2 h3 h4 hw h5 h6
    · cases h with
      | createJob h1 h2 h3 h4 hw h5 h6 => exact ⟨_, runs_createJob.2 ⟨h1, rfl, h2, h3, h4, _, hw, h5, h6, rfl⟩⟩
  | acceptJob jobId worker now =>
    refine runs_discard.trans ⟨fun ⟨res, h⟩ => ?_, fun h => ?_⟩
    · obtain ⟨j, hj, h1, h2, h3, h4, -, rfl⟩ := runs_acceptJob.1 h
      exact .acceptJob hj h1 h2 h3 h4
    · cases h with
      | acceptJob hj h1 h2 h3 h4 => exact ⟨_, runs_acceptJob.2 ⟨_, hj, h1, h2, h3, h4, rfl, rfl⟩⟩
  | startJob jobId worker now =>
    refine runs_discard.trans ⟨fun ⟨res, h⟩ => ?_, fun h => ?_⟩
    · obtain ⟨j, hj, h1, h2, -, rfl⟩ := runs_startJob.1 h
      exact .startJob hj h1 h2
    · cases h with
      | startJob hj h1 h2 => exact ⟨_, runs_startJob.2 ⟨_, hj, h1, h2, rfl, rfl⟩⟩
  | completeJob jobId employer now =>
    refine runs_discard.trans ⟨fun ⟨res, h⟩ => ?_, fun h => ?_⟩
    · obtain ⟨j, we, worker, ww, hj, h1, h2, h3, h4, hwe, hww, hc, -, rfl⟩ := runs_completeJob.1 h
      exact .completeJob hj h1 h2 h3 h4 hwe hww hc
    · cases h with
      | completeJob hj h1 h2 h3 h4 hwe hww hc =>
        exact ⟨_, runs_completeJob.2 ⟨_, _, _, _, hj, h1, h2, h3, h4, hwe, hww, hc, rfl, rfl⟩⟩
  | cancelJob jobId user reason now =>
    refine runs_discard.trans ⟨fun ⟨res, h⟩ => ?_, fun h => ?_⟩
    · obtain ⟨j, w, hj, h1, h2, hw, hc, -, rfl⟩ := runs_cancelJob.1 h
      exact .cancelJob hj h1 h2 hw hc
    · cases h with
      | cancelJob hj h1 h2 hw hc => exact ⟨_, runs_cancelJob.2 ⟨_, _, hj, h1, h2, hw, hc, rfl, rfl⟩⟩
  | initiateDeposit id user amount providerName uuidHex =>
    refine runs_discard.trans ⟨fun ⟨res, h⟩ => ?_, fun h => ?_⟩
    · obtain ⟨h1, h2, h3, h4, p, hp, -, rfl⟩ := runs_initiateDeposit.1 h
      exact .initiateDeposit h1 h2 h3 h4 hp
    · cases h with
      | initiateDeposit h1 h2 h3 h4 hp => exact ⟨_, runs_initiateDeposit.2 ⟨h1, h2, h3, h4, _, hp, rfl, rfl⟩⟩
  | confirmDeposit v externalId =>
    refine runs_discard.trans ⟨fun ⟨res, h⟩ => ?_, fun h => ?_⟩
    · obtain ⟨r, w, hid, hr, h1, hw, h2, h3, rfl, rfl⟩ := runs_confirmDeposit.1 h
      exact .confirmDeposit hid hr h1 hw h2 h3
    · cases h with
      | confirmDeposit hid hr h1 hw h2 h3 =>
        exact ⟨_, runs_confirmDeposit.2 ⟨_, _, hid, hr, h1, hw, h2, h3, rfl, rfl⟩⟩

/-- a call does what `Step` says, or nothing -/
theorem step_cases (E : Env) (db : DB) (op : Op) : Step E db op (step E db op) ∨ step E db op = db := by
  rcases call_cases store (Op.prog E) db op with ⟨u, h⟩ | h
  · exact Or.inl (runs_prog.1 h)
  · exact Or.inr h

/-- **The invariant rule.** -/
theorem run_inv {P : DB → Prop} (hs : ∀ db op db', P db → Step E db op db' → P db') (h : P db) (ops : List Op) :
    P (run E db ops) :=
  call_inv (fun d o _ d' hd hr => hs d o d' hd (runs_prog.1 hr)) h ops

theorem run_append (E : Env) (db : DB) (ops ops' : List Op) : run E db (ops ++ ops') = run E (run E db ops) ops' := by
  simp [run, List.foldl_append]

end Runs

/-! ## A small market

One employer, one worker and the default limits; the run in which a job is paid for. -/

/-- `int` knows the one id of the market, `md5` the digest of one callback and `b64decode` the credentials of one
merchant; the division is exact -/
def demoPy : Py where
  trueDiv a b := (a : ℚ) / b
  int s := if s = "1" then some 1 else none
  floatStr _ := ""
  repr _ := ""
  md5 s := if s = "777servicesecret1100012024-05-01 12:00:00" then "82dfe3bdea3c473b956204fee3cfb3c3" else ""
  b64decode s := if s = "bWVyY2hhbnQ6a2V5" then some "merchant:key" else none
  excStr _ := ""

def demoEnv : Env where
  py := demoPy
  platformCommissionPercent := 10
  minDeposit := 10000
  maxDeposit := 10000000
  payme := some ⟨"merchant", "key"⟩
  click := some ⟨"service", "merchant", "secret"⟩
  outerJoinLock := .returned
  debug := false

def demoEmployer : User := ⟨1, "employer"⟩

def demoWorker : User := ⟨2, "worker"⟩

def demoUsers : Table User := ⟨[demoEmployer, demoWorker], by decide⟩

def demoJob : JobData := ⟨"Move a sofa", 1, 100005, 41, 69, by decide, by decide, by decide⟩

/-- 500000 tiyin are deposited and the job is posted -/
def demoPosted : List Op :=
  [.initiateDeposit 1 demoEmployer 500000 "payme" "", .confirmDeposit (.int 1) "", .createJob 1 demoEmployer demoJob 0]

def demoPaid : List Op :=
  demoPosted ++ [.acceptJob "1" demoWorker 1, .startJob "1" demoWorker 2, .completeJob "1" demoEmployer 3]

example : (run demoEnv (init demoUsers) demoPaid).wallets.rows =
    [⟨1, 399995, 0, 0, 100005⟩, ⟨2, 90005, 0, 90005, 0⟩] := by decide +kernel

end GigMarketplace
