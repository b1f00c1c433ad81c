/-
The database of the backend: rows of `apps/accounts/models.py`, `apps/jobs/models.py` and `apps/payments/models.py`,
the tasks the services enqueue, and the store that the transaction programs of
`Core/RowLock.lean` run on.

A wallet is the OneToOne companion of its user, so it is keyed by the user's id, and `Transaction.wallet` and
`PaymentRequest.wallet` hold that id. Money is in tiyin, as Python ints; `Wallet.save` and the insertions check the
range of the column (PositiveBigIntegerField, PositiveIntegerField) and raise outside it. Left out: columns that no
modelled function reads (`updated_at`, `meta`, addresses, avatars) and the lengths of text columns: a too long text
makes the real call raise, which the runs here contain as calls that did nothing.

`Transaction.request` is a ghost: it names the payment request a DEPOSIT row was credited for. No column holds it and
no code reads it.
-/
import GigMarketplace.Core.Table
import GigMarketplace.Core.RowLock
import GigMarketplace.Runtime

namespace GigMarketplace

open GigMarketplace.Core

/-- BigAutoField -/
abbrev Pk := ℤ

abbrev Time := ℕ

/-! ## accounts -/

inductive UserRole where
  | employer
  | worker
deriving DecidableEq, Repr

def UserRole.value : UserRole → String
  | .employer => "employer"
  | .worker => "worker"

structure User where
  id : Pk
  role : String
deriving DecidableEq, Repr

def User.isEmployer (u : User) : Bool := u.role = UserRole.employer.value

def User.isWorker (u : User) : Bool := u.role = UserRole.worker.value

/-! ## jobs -/

inductive JobStatus where
  | created
  | accepted
  | inProgress
  | completed
  | cancelled
deriving DecidableEq, Repr

def JobStatus.value : JobStatus → String
  | .created => "created"
  | .accepted => "accepted"
  | .inProgress => "in_progress"
  | .completed => "completed"
  | .cancelled => "cancelled"

/-- `validated_data` of CreateJobSerializer -/
structure JobData where
  title : String
  category : Pk
  price : ℤ
  latitude : ℚ
  longitude : ℚ
  price_min : 100 ≤ price
  latitude_ok : -90 ≤ latitude ∧ latitude ≤ 90
  longitude_ok : -180 ≤ longitude ∧ longitude ≤ 180

structure Job where
  id : Pk
  employer : Pk
  worker : Option Pk
  title : String
  category : Pk
  price : ℤ
  latitude : ℚ
  longitude : ℚ
  status : JobStatus
  createdAt : Time
  acceptedAt : Option Time
  startedAt : Option Time
  completedAt : Option Time
  cancelledAt : Option Time
  cancelReason : String
deriving DecidableEq, Repr

def Job.canBeCancelled (j : Job) : Bool := j.status ≠ .completed ∧ j.status ≠ .cancelled

/-- the job's price is in escrow -/
def Job.isOpen (j : Job) : Prop := j.status = .created ∨ j.status = .accepted ∨ j.status = .inProgress

instance (j : Job) : Decidable j.isOpen := by unfold Job.isOpen; infer_instance

/-! ## payments -/

structure Wallet where
  user : Pk
  balance : ℤ
  heldBalance : ℤ
  totalEarned : ℤ
  totalSpent : ℤ
deriving DecidableEq, Repr

inductive TransactionType where
  | deposit
  | jobPayment
  | jobRelease
  | commission
  | refund
  | withdrawal
deriving DecidableEq, Repr

inductive TransactionStatus where
  | pending
  | completed
  | failed
  | reversed
deriving DecidableEq, Repr

inductive Direction where
  | credit
  | debit
deriving DecidableEq, Repr

structure Transaction where
  wallet : Pk
  transactionType : TransactionType
  direction : Direction
  amount : ℤ
  balanceBefore : ℤ
  balanceAfter : ℤ
  status : TransactionStatus
  job : Option Pk
  externalId : String
  provider : String
  description : String
  /-- ghost: the payment request credited by a DEPOSIT row -/
  request : Option Pk
deriving DecidableEq, Repr

structure PaymentRequest where
  id : Pk
  wallet : Pk
  provider : String
  amount : ℤ
  status : TransactionStatus
  externalId : String
  paymentUrl : String
deriving DecidableEq, Repr

/-! ## Tasks -/

/-- tasks of `apps/notifications/tasks.py` -/
inductive Task where
  | notifyNewJob (job : Pk)
  | notifyJobAccepted (job : Pk)
  | notifyJobCompleted (job : Pk)
deriving DecidableEq, Repr

/-! ## The database -/

instance : Keyed User Pk := ⟨User.id, fun u k => { u with id := k }, fun _ _ => rfl, fun _ => rfl⟩
instance : Keyed Wallet Pk := ⟨Wallet.user, fun w k => { w with user := k }, fun _ _ => rfl, fun _ => rfl⟩
instance : Keyed Job Pk := ⟨Job.id, fun j k => { j with id := k }, fun _ _ => rfl, fun _ => rfl⟩
instance : Keyed PaymentRequest Pk := ⟨PaymentRequest.id, fun r k => { r with id := k }, fun _ _ => rfl, fun _ => rfl⟩

@[simp] theorem pk_user (u : User) : pk u = u.id := rfl
@[simp] theorem pk_wallet (w : Wallet) : pk w = w.user := rfl
@[simp] theorem pk_job (j : Job) : pk j = j.id := rfl
@[simp] theorem pk_request (r : PaymentRequest) : pk r = r.id := rfl

/-- the rows a transaction locks -/
inductive Key where
  | user (id : Pk)
  | wallet (user : Pk)
  | job (id : Pk)
  | request (id : Pk)
deriving DecidableEq, Repr

abbrev Key.Row : Key → Type
  | .user _ => User
  | .wallet _ => Wallet
  | .job _ => Job
  | .request _ => PaymentRequest

abbrev gig : Schema := ⟨Key, Key.Row, Transaction, Task, Exc⟩

/-- a database transaction of the backend -/
abbrev Tx := Prog gig

structure DB where
  users : Table User
  wallets : Table Wallet
  jobs : Table Job
  requests : Table PaymentRequest
  /-- payments_transactions, in the order the rows became visible -/
  ledger : List Transaction
deriving DecidableEq

namespace DB

def get (db : DB) : (k : Key) → Option k.Row
  | .user i => db.users.find i
  | .wallet u => db.wallets.find u
  | .job i => db.jobs.find i
  | .request i => db.requests.find i

def update (db : DB) : (k : Key) → (k.Row → k.Row) → DB
  | .user i, f => { db with users := db.users.update i f }
  | .wallet u, f => { db with wallets := db.wallets.update u f }
  | .job i, f => { db with jobs := db.jobs.update i f }
  | .request i, f => { db with requests := db.requests.update i f }

/-- the row is stored under the key it is inserted with -/
def insert (db : DB) : (k : Key) → k.Row → DB
  | .user i, r => { db with users := db.users.insert (withPk r i) }
  | .wallet u, r => { db with wallets := db.wallets.insert (withPk r u) }
  | .job i, r => { db with jobs := db.jobs.insert (withPk r i) }
  | .request i, r => { db with requests := db.requests.insert (withPk r i) }

def append (db : DB) (t : Transaction) : DB := { db with ledger := db.ledger ++ [t] }

theorem get_update (db : DB) (k : Key) (f : k.Row → k.Row) (k' : Key) (h : k' ≠ k) :
    (db.update k f).get k' = db.get k' := by
  cases k <;> cases k' <;> simp only [update, get]
  all_goals exact Table.find_update_ne fun e => h (by rw [e])

theorem get_insert (db : DB) (k : Key) (r : k.Row) (k' : Key) (h : k' ≠ k) :
    (db.insert k r).get k' = db.get k' := by
  cases k <;> cases k' <;> simp only [insert, get]
  all_goals
    rw [Table.find_insert, if_neg]
    rw [pk_withPk]
    exact fun e => h (by rw [e])

theorem get_update_self (db : DB) (k : Key) (f : k.Row → k.Row) :
    ∃ g : k.Row → k.Row, (db.update k f).get k = (db.get k).map g ∧
      ∀ db' : DB, (db'.update k f).get k = (db'.get k).map g := by
  cases k <;> simp only [update, get, Table.find_update, if_true] <;> exact ⟨_, rfl, fun _ => rfl⟩

theorem get_insert_self (db : DB) (k : Key) (r : k.Row) :
    ∃ r', (db.insert k r).get k = some ((db.get k).getD r') ∧
      ∀ db' : DB, (db'.insert k r).get k = some ((db'.get k).getD r') := by
  cases k <;> simp only [insert, get, Table.find_insert, pk_withPk, if_true] <;> exact ⟨_, rfl, fun _ => rfl⟩

end DB

/-- the backend's database as a store for transaction programs -/
def store : Store gig DB where
  get := DB.get
  update := DB.update
  insert := DB.insert
  append := DB.append
  update_congr := fun {d d' k f} h => by
    obtain ⟨g, h1, h2⟩ := d.get_update_self k f
    rw [h1, h2 d', h]
  update_frame := fun {d k f k'} h => d.get_update k f k' h
  update_isSome := fun {d k f k'} => by
    by_cases h : k' = k
    · subst h
      obtain ⟨g, h1, -⟩ := d.get_update_self k' f
      rw [h1, Option.isSome_map]
    · rw [d.get_update k f k' h]
  insert_congr := fun {d d' k r} h => by
    obtain ⟨r', h1, h2⟩ := d.get_insert_self k r
    rw [h1, h2 d', h]
  insert_frame := fun {d k r k'} h => d.get_insert k r k' h
  insert_isSome := fun {d k r} => by
    obtain ⟨r', h1, -⟩ := d.get_insert_self k r
    rw [h1]; rfl
  append_get := fun {d l k} => by cases k <;> rfl

section Store

variable (db : DB)

@[simp] theorem store_get (k : Key) : store.get db k = db.get k := rfl
@[simp] theorem store_update (k : Key) (f : k.Row → k.Row) : store.update db k f = db.update k f := rfl
@[simp] theorem store_insert (k : Key) (r : k.Row) : store.insert db k r = db.insert k r := rfl
@[simp] theorem store_append (t : Transaction) : store.append db t = { db with ledger := db.ledger ++ [t] } := rfl
@[simp] theorem get_user (i : Pk) : db.get (.user i) = db.users.find i := rfl
@[simp] theorem get_wallet (u : Pk) : db.get (.wallet u) = db.wallets.find u := rfl
@[simp] theorem get_job (i : Pk) : db.get (.job i) = db.jobs.find i := rfl
@[simp] theorem get_request (i : Pk) : db.get (.request i) = db.requests.find i := rfl
@[simp] theorem update_wallet (u : Pk) (f : Wallet → Wallet) :
    db.update (.wallet u) f = { db with wallets := db.wallets.update u f } := rfl
@[simp] theorem update_job (i : Pk) (f : Job → Job) :
    db.update (.job i) f = { db with jobs := db.jobs.update i f } := rfl
@[simp] theorem update_request (i : Pk) (f : PaymentRequest → PaymentRequest) :
    db.update (.request i) f = { db with requests := db.requests.update i f } := rfl
@[simp] theorem insert_job (i : Pk) (j : Job) :
    db.insert (.job i) j = { db with jobs := db.jobs.insert { j with id := i } } := rfl
@[simp] theorem insert_request (i : Pk) (r : PaymentRequest) :
    db.insert (.request i) r = { db with requests := db.requests.insert { r with id := i } } := rfl

end Store

/-- each user owns one wallet, every field 0; no jobs, no requests, no ledger rows -/
def init (users : Table User) : DB where
  users := users
  wallets := ⟨users.rows.map fun u => ⟨u.id, 0, 0, 0, 0⟩, by
    rw [List.map_map]; exact users.nodup⟩
  jobs := .empty
  requests := .empty
  ledger := []

end GigMarketplace
