/-
No deadlock between the operations: they take their row locks in one order, as long as the roles of the users are fixed.

The order is by what is locked: a job or a payment request first, then the users joined to it, then wallets; and among
users and among wallets, an employer's before a worker's. complete_job locks the wallet of the job's employer and then
the wallet of its worker, with no order by id: this climbs because no user is the employer of one job and the worker of
another (`RolesOk`), which the role checks of create_job and accept_job keep true of every job.

Results:
- `climbs_prog`: every operation of a caller with a fixed role climbs in this order;
- `no_deadlock`: from every reachable state, in every interleaving of any number of operations, no circle of waiting
  transactions arises, whichever of the row locks count (`explicitLocks`: jobs, requests and wallets).
-/
import GigMarketplace.Core.LockOrder
import GigMarketplace.System

namespace GigMarketplace

open GigMarketplace.Core GigMarketplace.Core.Prog

/-! ## Roles -/

/-- whose request it is -/
def Op.caller : Op → Option User
  | .createJob _ employer _ _ => some employer
  | .acceptJob _ worker _ => some worker
  | .startJob _ worker _ => some worker
  | .completeJob _ employer _ => some employer
  | .cancelJob _ user _ _ => some user
  | .initiateDeposit _ user _ _ _ => some user
  | .confirmDeposit .. => none

/-- the caller has the role that its id always has -/
def Op.RoleFixed (roleOf : Pk → String) (op : Op) : Prop := ∀ u, op.caller = some u → u.role = roleOf u.id

/-- the employer of the job is an employer, the worker a worker -/
structure Job.RolesOk (roleOf : Pk → String) (j : Job) : Prop where
  employer : roleOf j.employer = UserRole.employer.value
  worker : ∀ u, j.worker = some u → roleOf u = UserRole.worker.value

def RolesOk (roleOf : Pk → String) (db : DB) : Prop := ∀ j ∈ db.jobs.rows, j.RolesOk roleOf

/-- the order of the locks -/
def lockRank (roleOf : Pk → String) : Key → ℕ
  | .job _ => 0
  | .request _ => 0
  | .user u => if roleOf u = UserRole.worker.value then 2 else 1
  | .wallet u => if roleOf u = UserRole.worker.value then 4 else 3

/-- the rows that the code locks by name; the joined users are left out -/
def explicitLocks : Key → Bool
  | .user _ => false
  | .wallet _ => true
  | .job _ => true
  | .request _ => true

section Roles

variable {roleOf : Pk → String} {db : DB}

theorem rolesOk_updateJob (h : RolesOk roleOf db) (i : Pk) {f : Job → Job}
    (hf : ∀ j, j.RolesOk roleOf → (f j).RolesOk roleOf) : RolesOk roleOf (db.update (.job i) f) := by
  intro j hj
  obtain ⟨j', hj', rfl⟩ := List.mem_map.1 hj
  split_ifs
  · exact ⟨(hf j' (h j' hj')).employer, (hf j' (h j' hj')).worker⟩
  · exact h j' hj'

theorem rolesOk_insertJob (h : RolesOk roleOf db) {j : Job} (hj : j.RolesOk roleOf) :
    RolesOk roleOf (db.insert (.job j.id) j) := by
  intro j' hj'
  by_cases hfresh : db.jobs.find j.id = none
  · rw [insert_job, Table.mem_insert (r := j) hfresh] at hj'
    rcases hj' with hj' | rfl
    · exact h j' hj'
    · exact hj
  · -- the id is taken: nothing is inserted
    have hsame : (db.insert (.job j.id) j).jobs = db.jobs := dif_neg hfresh
    rw [hsame] at hj'
    exact h j' hj'

end Roles

/-! ## The services climb -/

section Services

variable {roleOf : Pk → String} {tracked : Key → Bool} {held : Set Key} {E : Env} {j : Job}

/-- the program climbs in the order of the locks -/
abbrev InOrder (roleOf : Pk → String) (tracked : Key → Bool) {A : Type} (held : Set Key) (p : Tx A)
    (Q : A → Set Key → Prop) : Prop :=
  Climbs tracked (lockRank roleOf) store (RolesOk roleOf) held p Q

/-- nothing above the rank `n` is locked -/
def Below (roleOf : Pk → String) (n : ℕ) (held : Set Key) : Prop := ∀ k ∈ held, lockRank roleOf k ≤ n

theorem inOrder_save {w : Wallet} {fields : List WalletField} {Q : Unit → Set Key → Prop} (h : Q () held) :
    InOrder roleOf tracked held (w.save fields) Q := by
  unfold Wallet.save
  refine climbs_bind.2 (climbs_raiseIf.2 fun _ => climbs_set.2 ⟨fun d hd => hd, h⟩)

theorem inOrder_transactionCreate {t : Transaction} {Q : Transaction → Set Key → Prop} (h : Q t held) :
    InOrder roleOf tracked held t.create Q := by
  unfold Transaction.create
  refine climbs_bind.2 (climbs_raiseIf.2 fun _ => climbs_bind.2 (climbs_record.2 ⟨fun d hd => hd, h⟩))

theorem inOrder_deposit {w : Wallet} {amount : ℤ} {provider externalId : String} {request : Option Pk}
    {Q : Transaction → Set Key → Prop} (h : ∀ t, Q t held) :
    InOrder roleOf tracked held (WalletService.deposit E w amount provider externalId request) Q := by
  unfold WalletService.deposit
  refine climbs_bind.2 (climbs_raiseIf.2 fun _ => climbs_bind.2 (climbs_raiseIf.2 fun _ => climbs_bind.2 ?_))
  exact inOrder_save (inOrder_transactionCreate (h _))

theorem inOrder_deductForJob {w : Wallet} {Q : Transaction → Set Key → Prop} (h : ∀ t, Q t held) :
    InOrder roleOf tracked held (WalletService.deductForJob w j) Q := by
  unfold WalletService.deductForJob
  refine climbs_bind.2 (climbs_raiseIf.2 fun _ => climbs_bind.2 ?_)
  exact inOrder_save (inOrder_transactionCreate (h _))

/-- a wallet lock while no wallet of its kind or above is locked -/
theorem inOrder_walletGetForUpdate {user : Option Pk} {Q : Wallet → Set Key → Prop}
    (hrank : ∀ u, user = some u → ∀ k ∈ held, lockRank roleOf k < lockRank roleOf (.wallet u))
    (hQ : ∀ u w h, user = some u → Below roleOf (lockRank roleOf (.wallet u)) h → Q w h) :
    InOrder roleOf tracked held (Wallet.getForUpdate user) Q := by
  cases user with
  | none => exact climbs_raise.2 trivial
  | some u => exact climbs_selectForUpdate (hrank u rfl) fun d w h _ _ _ _ hb => hQ u w h rfl hb

/-- an employer's wallet, then a worker's -/
theorem inOrder_releaseJobPayment (hj : j.RolesOk roleOf) {Q : Transaction × Transaction → Set Key → Prop}
    (hheld : Below roleOf 2 held) (hQ : ∀ t h, Q t h) :
    InOrder roleOf tracked held (WalletService.releaseJobPayment E j) Q := by
  have hemployer : lockRank roleOf (.wallet j.employer) = 3 := by
    simp [lockRank, hj.employer, UserRole.value]
  unfold WalletService.releaseJobPayment
  refine climbs_bind.2 (inOrder_walletGetForUpdate (fun u hu k hk => ?_) fun u we h hu hb => ?_)
  · cases hu
    rw [hemployer]
    exact Nat.lt_succ_of_le (hheld k hk)
  · cases hu
    refine climbs_bind.2 (inOrder_walletGetForUpdate (fun u hu k hk => ?_) fun u ww h' hu hb' => ?_)
    · have hworker : lockRank roleOf (.wallet u) = 4 := by
        simp [lockRank, hj.worker u hu]
      rw [hworker]
      exact Nat.lt_succ_of_le ((hb k hk).trans_eq hemployer)
    · refine climbs_bind.2 (inOrder_save (climbs_bind.2 (inOrder_transactionCreate (climbs_bind.2 ?_))))
      exact inOrder_save (climbs_bind.2 (inOrder_transactionCreate (hQ _ _)))

theorem inOrder_refundJob (hheld : Below roleOf 2 held) {Q : Transaction → Set Key → Prop} (hQ : ∀ t h, Q t h) :
    InOrder roleOf tracked held (WalletService.refundJob j) Q := by
  unfold WalletService.refundJob
  refine climbs_bind.2 (inOrder_walletGetForUpdate (fun u hu k hk => ?_) fun u w h hu hb => ?_)
  · refine (hheld k hk).trans_lt ?_
    simp only [lockRank]
    split_ifs <;> decide
  · exact climbs_bind.2 (inOrder_save (inOrder_transactionCreate (hQ _ _)))

/-! ### The queries -/

theorem inOrder_userLock {id : Pk} {busy : Option Exc} {miss : Exc} {Q : User → Set Key → Prop}
    (hrank : ∀ k ∈ held, lockRank roleOf k < lockRank roleOf (.user id))
    (hQ : ∀ u h, Below roleOf (lockRank roleOf (.user id)) h → Q u h) :
    InOrder roleOf tracked held (User.lock id busy miss) Q :=
  climbs_selectForUpdate hrank fun _ u h _ _ _ _ hb => hQ u h hb

theorem rolesOk_of_get {db : DB} {i : Pk} {j : Job} (h : RolesOk roleOf db)
    (hj : store.get db (.job i) = some j) : j.RolesOk roleOf :=
  h j (Table.mem_of_find hj)

theorem rank_employer (hj : j.RolesOk roleOf) : lockRank roleOf (.user j.employer) = 1 := by
  simp [lockRank, hj.employer, UserRole.value]

theorem rank_worker (hj : j.RolesOk roleOf) {u : Pk} (hu : j.worker = some u) : lockRank roleOf (.user u) = 2 := by
  simp [lockRank, hj.worker u hu]

/-- the job, then its employer -/
theorem inOrder_jobGetNowait {jobId : String} {Q : Job → Set Key → Prop} (hQ : ∀ j h, j.RolesOk roleOf → Q j h) :
    InOrder roleOf tracked ∅ (Job.getNowait E jobId) Q := by
  unfold Job.getNowait
  cases E.py.int jobId with
  | none => exact climbs_raise.2 trivial
  | some id =>
    refine climbs_bind.2 (climbs_selectForUpdate (S := gig) (k := .job id) (by simp) fun d j h hd hj _ _ hb => ?_)
    have hroles := rolesOk_of_get hd hj
    refine climbs_bind.2 (inOrder_userLock (fun k hk => ?_) fun u h' _ => hQ j h' hroles)
    rw [rank_employer hroles]
    exact Nat.lt_succ_of_le (hb k hk)

/-- the job, its employer, its worker -/
theorem inOrder_lockJoined {id : Pk} {pick : Job → Bool} {missing : Exc} {Q : Job → Set Key → Prop}
    (hQ : ∀ j h, j.RolesOk roleOf → Below roleOf 2 h → Q j h) :
    InOrder roleOf tracked ∅ (Job.lockJoined id pick missing) Q := by
  unfold Job.lockJoined
  refine climbs_bind.2 (climbs_selectForUpdate (S := gig) (k := .job id) (by simp) fun d j h hd hj _ _ hb => ?_)
  have hroles := rolesOk_of_get hd hj
  refine climbs_bind.2 (inOrder_userLock (fun k hk => ?_) fun u h' hb' => ?_)
  · rw [rank_employer hroles]
    exact Nat.lt_succ_of_le (hb k hk)
  · rw [rank_employer hroles] at hb'
    refine climbs_bind.2 (climbs_runIf.2 ⟨fun hw => ?_, fun _ => ?_⟩)
    · obtain ⟨w, hw⟩ := Option.isSome_iff_exists.1 hw
      rw [hw, Option.getD_some]
      refine inOrder_userLock (fun k hk => ?_) fun v h'' hb'' => ?_
      · rw [rank_worker hroles hw]
        exact Nat.lt_succ_of_le (hb' k hk)
      · rw [rank_worker hroles hw] at hb''
        exact hQ j h'' hroles hb''
    · exact hQ j h' hroles fun k hk => (hb' k hk).trans (by decide)

theorem inOrder_jobGetForUpdate {jobId : String} {pick : Job → Bool} {missing : Exc} {Q : Job → Set Key → Prop}
    (hQ : ∀ j h, j.RolesOk roleOf → Below roleOf 2 h → Q j h) :
    InOrder roleOf tracked ∅ (Job.getForUpdate E jobId pick missing) Q := by
  unfold Job.getForUpdate
  cases E.py.int jobId with
  | none => exact climbs_raise.2 trivial
  | some id => exact climbs_bind.2 (climbs_raiseIf.2 fun _ => inOrder_lockJoined hQ)

theorem inOrder_jobGetOfWorker {jobId : String} {worker : User} {missing : Exc} {Q : Job → Set Key → Prop}
    (hQ : ∀ j h, j.RolesOk roleOf → Below roleOf 2 h → Q j h) :
    InOrder roleOf tracked ∅ (Job.getOfWorker E jobId worker missing) Q := by
  unfold Job.getOfWorker
  cases E.py.int jobId with
  | none => exact climbs_raise.2 trivial
  | some id => exact inOrder_lockJoined hQ

theorem inOrder_jobCreate (hj : j.RolesOk roleOf) {Q : Unit → Set Key → Prop} (hQ : Q () held) :
    InOrder roleOf tracked held j.create Q := by
  unfold Job.create
  refine climbs_bind.2 (climbs_raiseIf.2 fun _ => climbs_bind.2 (climbs_present.2 ?_))
  exact climbs_create.2 ⟨fun d hd => rolesOk_insertJob hd hj, hQ⟩

/-- the request, its wallet by the join, and the wallet once more by name -/
theorem inOrder_confirmDeposit {v : Json} {externalId : String} :
    InOrder roleOf tracked ∅ (DepositService.confirmDeposit E v externalId) fun _ _ => True := by
  unfold DepositService.confirmDeposit
  rcases lookupId E.py v with e | i
  · exact climbs_raise.2 trivial
  · cases i with
    | none => exact climbs_raise.2 trivial
    | some id =>
      refine climbs_bind.2 ?_
      unfold PaymentRequest.getPending
      refine climbs_bind.2 (climbs_selectForUpdate (S := gig) (k := .request id) (by simp) fun d r h _ _ _ _ hb => ?_)
      refine climbs_bind.2 (climbs_selectForUpdate (S := gig) (k := .wallet r.wallet) (fun k hk => ?_)
        fun d' w h' _ _ _ hheld _ => ?_)
      · refine (hb k hk).trans_lt ?_
        simp only [lockRank]
        split_ifs <;> decide
      · refine climbs_bind.2 (climbs_selectForUpdate_again (S := gig) (k := .wallet r.wallet) hheld
          fun d'' w' _ _ _ => ?_)
        exact climbs_bind.2 (inOrder_deposit fun t => climbs_bind.2 (climbs_set.2 ⟨fun _ hd => hd, trivial⟩))

end Services

/-! ## Every operation -/

section Operations

variable {roleOf : Pk → String} {tracked : Key → Bool} {E : Env}

theorem inOrder_discard {A : Type} {p : Tx A} (h : InOrder roleOf tracked ∅ p fun _ _ => True) :
    InOrder roleOf tracked ∅ (discard p) fun _ _ => True :=
  climbs_bind.2 h

/-- **The operations climb.** -/
theorem climbs_prog {op : Op} (hrole : op.RoleFixed roleOf) :
    InOrder roleOf tracked ∅ (op.prog E) fun _ _ => True := by
  cases op with
  | createJob id employer data now =>
    refine inOrder_discard (climbs_bind.2 (climbs_raiseIf.2 fun hemployer => ?_))
    have hnew : (newJob id employer data now).RolesOk roleOf := by
      refine ⟨?_, fun u hu => by cases hu⟩
      rw [show (newJob id employer data now).employer = employer.id from rfl, ← hrole employer rfl]
      simpa [User.isEmployer] using hemployer
    refine climbs_bind.2 (inOrder_walletGetForUpdate (by simp) fun u w h _ _ => ?_)
    refine climbs_bind.2 (climbs_raiseIf.2 fun _ => climbs_bind.2 (inOrder_jobCreate hnew ?_))
    exact climbs_bind.2 (inOrder_deductForJob fun t => trivial)
  | acceptJob jobId worker now =>
    refine inOrder_discard (climbs_bind.2 (climbs_raiseIf.2 fun hworker => ?_))
    have hwrole : roleOf worker.id = UserRole.worker.value := by
      rw [← hrole worker rfl]
      simpa [User.isWorker] using hworker
    refine climbs_bind.2 (inOrder_jobGetNowait fun j h hj => climbs_bind.2 (climbs_raiseIf.2 fun _ => ?_))
    refine climbs_bind.2 (climbs_raiseIf.2 fun _ => climbs_bind.2 (climbs_present.2 (climbs_bind.2 ?_)))
    refine climbs_set.2 ⟨fun d hd => rolesOk_updateJob hd j.id fun r hr => ⟨hr.employer, fun u hu => ?_⟩, trivial⟩
    cases hu
    exact hwrole
  | startJob jobId worker now =>
    refine inOrder_discard (climbs_bind.2 (inOrder_jobGetOfWorker fun j h hj _ => ?_))
    refine climbs_bind.2 (climbs_raiseIf.2 fun _ => climbs_bind.2 (climbs_set.2 ⟨fun d hd => ?_, trivial⟩))
    exact rolesOk_updateJob hd j.id fun r hr => ⟨hr.employer, hr.worker⟩
  | completeJob jobId employer now =>
    refine inOrder_discard (climbs_bind.2 (climbs_raiseIf.2 fun _ => ?_))
    refine climbs_bind.2 (inOrder_jobGetForUpdate fun j h hj hb => climbs_bind.2 (climbs_raiseIf.2 fun _ => ?_))
    refine climbs_bind.2 (climbs_raiseIf.2 fun _ => climbs_bind.2 (climbs_set.2 ⟨fun d hd => ?_, ?_⟩))
    · exact rolesOk_updateJob hd j.id fun r hr => ⟨hr.employer, hr.worker⟩
    · exact climbs_bind.2 (inOrder_releaseJobPayment ⟨hj.employer, hj.worker⟩ hb fun t h => trivial)
  | cancelJob jobId user reason now =>
    refine inOrder_discard (climbs_bind.2 (inOrder_jobGetForUpdate fun j h hj hb => ?_))
    refine climbs_bind.2 (climbs_raiseIf.2 fun _ => climbs_bind.2 (climbs_raiseIf.2 fun _ => climbs_bind.2 ?_))
    refine climbs_set.2 ⟨fun d hd => rolesOk_updateJob hd j.id fun r hr => ⟨hr.employer, hr.worker⟩, ?_⟩
    exact climbs_bind.2 (climbs_runIf.2 ⟨fun _ => inOrder_refundJob hb fun t h => trivial, fun _ => trivial⟩)
  | initiateDeposit id user amount providerName uuidHex =>
    refine inOrder_discard (climbs_bind.2 (climbs_raiseIf.2 fun _ => climbs_bind.2 (climbs_raiseIf.2 fun _ => ?_)))
    refine climbs_bind.2 (climbs_present.2 (climbs_bind.2 (climbs_bind.2 (climbs_raiseIf.2 fun _ => ?_))))
    refine climbs_create.2 ⟨fun d hd => hd, ?_⟩
    cases getPaymentProvider E providerName with
    | none => exact climbs_raise.2 trivial
    | some p => exact climbs_bind.2 (climbs_set.2 ⟨fun d hd => hd, trivial⟩)
  | confirmDeposit v externalId => exact inOrder_discard inOrder_confirmDeposit

theorem rolesOk_step {db : DB} {op : Op} (hrole : op.RoleFixed roleOf) (h : RolesOk roleOf db) :
    RolesOk roleOf (step E db op) := by
  rcases call_cases store (Op.prog E) db op with ⟨u, hr⟩ | hsame
  · have hclimb : InOrder roleOf explicitLocks ∅ (op.prog E) fun _ _ => True := climbs_prog hrole
    exact hclimb.runs h hr
  · rw [step, hsame]
    exact h

theorem rolesOk_run {db : DB} {ops : List Op} (hroles : ∀ op ∈ ops, op.RoleFixed roleOf) (h : RolesOk roleOf db) :
    RolesOk roleOf (run E db ops) := by
  induction ops generalizing db with
  | nil => exact h
  | cons op ops ih =>
    have hstep : RolesOk roleOf (step E db op) := rolesOk_step (hroles op List.mem_cons_self) h
    exact ih (fun o ho => hroles o (List.mem_cons_of_mem _ ho)) hstep

end Operations

/-- **No deadlock.** User roles are fixed (`roleOf`), the transactions start from a state that calls have reached, and
`tracked` says which row locks count. Then no interleaving of the operations, however many run at once, reaches a
circle of transactions each waiting for a lock that the next one holds. -/
theorem no_deadlock (E : Env) (users : Table User) (roleOf : Pk → String) (ops : List Op)
    (hops : ∀ op ∈ ops, op.RoleFixed roleOf) (evs : List (Event Op))
    (hevs : ∀ t op, .start t op ∈ evs → op.RoleFixed roleOf) (tracked : Key → Bool) :
    ¬ ∃ t, Relation.TransGen (WaitsFor tracked store (LockMachine.run tracked store (Op.prog E)
      (Conf.init gig Unit Op (run E (init users) ops)) evs)) t t := by
  have hreach : RolesOk roleOf (run E (init users) ops) := rolesOk_run hops fun j hj => by
    simp [init, Table.empty] at hj
  have hclimb : ∀ t op, .start t op ∈ evs → InOrder roleOf tracked ∅ (Op.prog E op) fun _ _ => True := by
    intro t op hstart
    exact climbs_prog (hevs t op hstart)
  exact no_wait_cycle hreach hclimb

/-- user 1 is an employer, everyone else a worker -/
def demoRole (u : Pk) : String := if u = 1 then "employer" else "worker"

/-- the worker accepts the posted job while the employer cancels it; the cancellation is held up by the job's lock -/
def demoOverlapping : List (Event Op) :=
  [.start 0 (.acceptJob "1" demoWorker 1), .start 1 (.cancelJob "1" demoEmployer "" 1), .step 0, .step 1]

theorem no_deadlock_demo :
    ¬ ∃ t, Relation.TransGen (WaitsFor explicitLocks store (LockMachine.run explicitLocks store (Op.prog demoEnv)
      (Conf.init gig Unit Op (run demoEnv (init demoUsers) demoPosted)) demoOverlapping)) t t := by
  refine no_deadlock demoEnv demoUsers demoRole demoPosted ?_ demoOverlapping ?_ explicitLocks
  · intro op hop u hu
    simp only [demoPosted, List.mem_cons, List.not_mem_nil, or_false] at hop
    rcases hop with rfl | rfl | rfl
    all_goals cases hu
    all_goals rfl
  · intro t op hstart u hu
    simp only [demoOverlapping, List.mem_cons, List.not_mem_nil, or_false, Event.start.injEq, reduceCtorEq] at hstart
    rcases hstart with ⟨-, rfl⟩ | ⟨-, rfl⟩
    all_goals cases hu
    all_goals rfl

end GigMarketplace
