/-
`apps/payments/services.py`: WalletService and DepositService, and what DepositService calls of
`apps/payments/providers/payment_providers.py`.

Each function is the transaction program its Python body issues, statement by statement. Joined rows that
`select_for_update()` locks as well are locked right after the row itself. Nested `transaction.atomic` blocks need no
construct of their own: no exception raised inside one is caught before the outermost block.

Results: for each function, exactly when it succeeds and what it then returns and writes (`runs_deposit`,
`runs_deductForJob`, `runs_releaseJobPayment`, `runs_refundJob`, `runs_initiateDeposit`, `runs_confirmDeposit`).
Everything proved later about money uses these and never unfolds a program.
-/
import GigMarketplace.Models

namespace GigMarketplace

open GigMarketplace.Core GigMarketplace.Core.Prog

/-! ## Columns -/

def bigintMax : ℤ := 9223372036854775807

/-- a value a PositiveBigIntegerField accepts -/
def InBigint (v : ℤ) : Prop := 0 ≤ v ∧ v ≤ bigintMax

instance (v : ℤ) : Decidable (InBigint v) := by unfold InBigint; infer_instance

inductive WalletField where
  | balance
  | heldBalance
  | totalEarned
  | totalSpent
deriving DecidableEq, Repr

def Wallet.col (w : Wallet) : WalletField → ℤ
  | .balance => w.balance
  | .heldBalance => w.heldBalance
  | .totalEarned => w.totalEarned
  | .totalSpent => w.totalSpent

def Wallet.setCol (w : Wallet) : WalletField → ℤ → Wallet
  | .balance, v => { w with balance := v }
  | .heldBalance, v => { w with heldBalance := v }
  | .totalEarned, v => { w with totalEarned := v }
  | .totalSpent, v => { w with totalSpent := v }

/-- the row after `w.save(update_fields=fields)`: the named columns of the object, the other columns of the row -/
def Wallet.merge (w : Wallet) (fields : List WalletField) (row : Wallet) : Wallet :=
  fields.foldl (fun r c => r.setCol c (w.col c)) row

def Wallet.save (w : Wallet) (updateFields : List WalletField) : Tx Unit := do
  raiseIf (¬ ∀ c ∈ updateFields, InBigint (w.col c)) .databaseError
  @set gig (.wallet w.user) (w.merge updateFields)

/-- `Wallet.objects.select_for_update().get(user=user)`; no wallet has `user=None` -/
def Wallet.getForUpdate : Option Pk → Tx Wallet
  | some user => @selectForUpdate gig (.wallet user) none (fun _ => true) (.doesNotExist "Wallet")
  | none => raise (.doesNotExist "Wallet")

/-- `Transaction.objects.create(...)` -/
def Transaction.create (t : Transaction) : Tx Transaction := do
  raiseIf (¬ (InBigint t.amount ∧ InBigint t.balanceBefore ∧ InBigint t.balanceAfter)) .databaseError
  @record gig t
  return t

@[simp] theorem setCol_user (w : Wallet) (c : WalletField) (v : ℤ) : (w.setCol c v).user = w.user := by
  cases c <;> rfl

@[simp] theorem merge_user (w : Wallet) (fields : List WalletField) (row : Wallet) :
    (w.merge fields row).user = row.user := by
  unfold Wallet.merge
  induction fields generalizing row with
  | nil => rfl
  | cons c fields ih => rw [List.foldl_cons, ih, setCol_user]

section Runs

variable {db db' : DB} {w : Wallet} {u : Unit}

@[simp] theorem runs_save {fields : List WalletField} :
    Runs store (w.save fields) db u db' ↔ (∀ c ∈ fields, InBigint (w.col c)) ∧
      db' = { db with wallets := db.wallets.update w.user (w.merge fields) } := by
  simp only [Wallet.save, runs_bind, runs_raiseIf, runs_set, not_not, store_update, update_wallet]
  refine ⟨?_, ?_⟩
  · intro hrun
    obtain ⟨_, _, ⟨h, rfl⟩, rfl⟩ := hrun
    exact ⟨h, rfl⟩
  · intro hrun
    obtain ⟨h, rfl⟩ := hrun
    exact ⟨(), db, ⟨h, rfl⟩, rfl⟩

@[simp] theorem runs_walletGetForUpdate {user : Option Pk} :
    Runs store (Wallet.getForUpdate user) db w db' ↔
      (∃ u, user = some u ∧ db.wallets.find u = some w) ∧ db' = db := by
  cases user with
  | none => simp [Wallet.getForUpdate]
  | some u =>
    refine (runs_selectForUpdate (S := gig) (k := .wallet u)).trans ?_
    simp

@[simp] theorem runs_transactionCreate {t t' : Transaction} :
    Runs store t.create db t' db' ↔ (InBigint t.amount ∧ InBigint t.balanceBefore ∧ InBigint t.balanceAfter) ∧
      t' = t ∧ db' = { db with ledger := db.ledger ++ [t] } := by
  simp only [Transaction.create, runs_bind, runs_raiseIf, runs_record, runs_pure, not_not, store_append]
  refine ⟨?_, ?_⟩
  · intro hrun
    obtain ⟨_, _, ⟨h, rfl⟩, _, _, rfl, rfl, rfl⟩ := hrun
    exact ⟨h, rfl, rfl⟩
  · intro hrun
    obtain ⟨h, rfl, rfl⟩ := hrun
    exact ⟨(), db, ⟨h, rfl⟩, (), _, rfl, rfl, rfl⟩

end Runs

/-! ## WalletService -/

/-- a row about a job; the blank columns are blank -/
def internalRow (job : Job) (wallet : Pk) (transactionType : TransactionType) (direction : Direction)
    (amount balanceBefore balanceAfter : ℤ) (description : String) : Transaction :=
  { wallet, transactionType, direction, amount, balanceBefore, balanceAfter, status := .completed, job := some job.id,
    externalId := "", provider := "internal", description, request := none }

/-- `request` is the ghost column -/
def depositRow (wallet : Pk) (amount balanceBefore balanceAfter : ℤ) (provider externalId : String)
    (request : Option Pk) : Transaction :=
  { wallet, transactionType := .deposit, direction := .credit, amount, balanceBefore, balanceAfter,
    status := .completed, job := none, externalId, provider, description := s!"Deposit via {provider}", request }

def WalletService.deposit (E : Env) (wallet : Wallet) (amount : ℤ) (provider externalId : String)
    (request : Option Pk) : Tx Transaction := do
  raiseIf (amount < E.minDeposit) (.validation s!"Minimum deposit is {E.minDeposit} tiyin.")
  raiseIf (amount > E.maxDeposit) (.validation s!"Maximum deposit is {E.maxDeposit} tiyin.")
  let balanceBefore := wallet.balance
  let wallet := { wallet with balance := wallet.balance + amount }
  wallet.save [.balance]
  (depositRow wallet.user amount balanceBefore wallet.balance provider externalId request).create

def WalletService.deductForJob (wallet : Wallet) (job : Job) : Tx Transaction := do
  let amount := job.price
  raiseIf (wallet.balance < amount)
    (.insufficientBalance s!"Insufficient balance. Need {amount}, have {wallet.balance}.")
  let balanceBefore := wallet.balance
  let wallet := { wallet with
    balance := wallet.balance - amount
    heldBalance := wallet.heldBalance + amount
    totalSpent := wallet.totalSpent + amount }
  wallet.save [.balance, .heldBalance, .totalSpent]
  (internalRow job wallet.user .jobPayment .debit amount balanceBefore wallet.balance
    s!"Escrow for job: {job.title}").create

def WalletService.releaseJobPayment (E : Env) (job : Job) : Tx (Transaction × Transaction) := do
  let (commissionAmount, workerAmount) := calculateCommission E job.price none
  let employerWallet ← Wallet.getForUpdate job.employer
  let workerWallet ← Wallet.getForUpdate job.worker
  let employerWallet := { employerWallet with heldBalance := employerWallet.heldBalance - job.price }
  employerWallet.save [.heldBalance]
  -- debited from the held balance: the row's two balances are the available balance, which stays
  let commissionTx ← (internalRow job employerWallet.user .commission .debit commissionAmount employerWallet.balance
    employerWallet.balance s!"Platform commission ({E.platformCommissionPercent}%) for job: {job.title}").create
  let workerBalanceBefore := workerWallet.balance
  let workerWallet := { workerWallet with
    balance := workerWallet.balance + workerAmount
    totalEarned := workerWallet.totalEarned + workerAmount }
  workerWallet.save [.balance, .totalEarned]
  let workerTx ← (internalRow job workerWallet.user .jobRelease .credit workerAmount workerBalanceBefore
    workerWallet.balance s!"Payout for job: {job.title}").create
  return (commissionTx, workerTx)

def WalletService.refundJob (job : Job) : Tx Transaction := do
  let employerWallet ← Wallet.getForUpdate job.employer
  let held := min job.price employerWallet.heldBalance
  let balanceBefore := employerWallet.balance
  let employerWallet := { employerWallet with
    balance := employerWallet.balance + held
    heldBalance := employerWallet.heldBalance - held
    totalSpent := max 0 (employerWallet.totalSpent - held) }
  employerWallet.save [.balance, .heldBalance, .totalSpent]
  (internalRow job employerWallet.user .refund .credit held balanceBefore employerWallet.balance
    s!"Refund for cancelled job: {job.title}").create

/-! What the functions write, from the job and the locked wallet. -/

def paymentRow (j : Job) (w : Wallet) : Transaction :=
  internalRow j w.user .jobPayment .debit j.price w.balance (w.balance - j.price) s!"Escrow for job: {j.title}"

def commissionRow (E : Env) (j : Job) (w : Wallet) : Transaction :=
  internalRow j w.user .commission .debit (calculateCommission E j.price none).1 w.balance w.balance
    s!"Platform commission ({E.platformCommissionPercent}%) for job: {j.title}"

def releaseRow (E : Env) (j : Job) (w : Wallet) : Transaction :=
  internalRow j w.user .jobRelease .credit (calculateCommission E j.price none).2 w.balance
    (w.balance + (calculateCommission E j.price none).2) s!"Payout for job: {j.title}"

def refundRow (j : Job) (w : Wallet) : Transaction :=
  internalRow j w.user .refund .credit (min j.price w.heldBalance) w.balance
    (w.balance + min j.price w.heldBalance) s!"Refund for cancelled job: {j.title}"

section WalletService

variable {E : Env} {db db' : DB} {w : Wallet} {j : Job} {t : Transaction}

theorem runs_deposit {amount : ℤ} {provider externalId : String} {request : Option Pk} :
    Runs store (WalletService.deposit E w amount provider externalId request) db t db' ↔
      (E.minDeposit ≤ amount ∧ amount ≤ E.maxDeposit) ∧
      (InBigint amount ∧ InBigint w.balance ∧ InBigint (w.balance + amount)) ∧
      t = depositRow w.user amount w.balance (w.balance + amount) provider externalId request ∧
      db' = { db with
        wallets := db.wallets.update w.user fun r => { r with balance := w.balance + amount }
        ledger := db.ledger ++ [t] } := by
  simp only [WalletService.deposit, runs_bind, runs_raiseIf, runs_save, runs_transactionCreate, not_lt]
  refine ⟨?_, ?_⟩
  · intro hrun
    obtain ⟨_, _, ⟨h1, rfl⟩, _, _, ⟨h2, rfl⟩, _, _, ⟨h3, rfl⟩, h4, rfl, rfl⟩ := hrun
    exact ⟨⟨h1, h2⟩, h4, rfl, rfl⟩
  · intro hrun
    obtain ⟨⟨h1, h2⟩, h3, rfl, rfl⟩ := hrun
    exact ⟨(), _, ⟨h1, rfl⟩, (), _, ⟨h2, rfl⟩, (), _, ⟨by simpa [Wallet.col] using h3.2.2, rfl⟩, h3, rfl, rfl⟩

theorem runs_deductForJob :
    Runs store (WalletService.deductForJob w j) db t db' ↔
      j.price ≤ w.balance ∧
      (InBigint j.price ∧ InBigint w.balance ∧ InBigint (w.balance - j.price) ∧
        InBigint (w.heldBalance + j.price) ∧ InBigint (w.totalSpent + j.price)) ∧
      t = paymentRow j w ∧
      db' = { db with
        wallets := db.wallets.update w.user fun r => { r with
          balance := w.balance - j.price
          heldBalance := w.heldBalance + j.price
          totalSpent := w.totalSpent + j.price }
        ledger := db.ledger ++ [t] } := by
  simp only [WalletService.deductForJob, runs_bind, runs_raiseIf, runs_save, runs_transactionCreate, not_lt]
  refine ⟨?_, ?_⟩
  · intro hrun
    obtain ⟨_, _, ⟨h1, rfl⟩, _, _, ⟨h2, rfl⟩, ⟨h3, h4, h5⟩, rfl, rfl⟩ := hrun
    simp only [List.forall_mem_cons, Wallet.col] at h2
    exact ⟨h1, ⟨h3, h4, h5, h2.2.1, h2.2.2.1⟩, rfl, rfl⟩
  · intro hrun
    obtain ⟨h1, ⟨h3, h4, h5, h6, h7⟩, rfl, rfl⟩ := hrun
    exact ⟨(), _, ⟨h1, rfl⟩, (), _, ⟨by simp [Wallet.col, h5, h6, h7], rfl⟩, ⟨h3, h4, h5⟩, rfl, rfl⟩

theorem runs_refundJob :
    Runs store (WalletService.refundJob j) db t db' ↔
      ∃ w, db.wallets.find j.employer = some w ∧
        (InBigint (min j.price w.heldBalance) ∧ InBigint w.balance ∧
          InBigint (w.balance + min j.price w.heldBalance) ∧ InBigint (w.heldBalance - min j.price w.heldBalance) ∧
          InBigint (max 0 (w.totalSpent - min j.price w.heldBalance))) ∧
        t = refundRow j w ∧
        db' = { db with
          wallets := db.wallets.update w.user fun r => { r with
            balance := w.balance + min j.price w.heldBalance
            heldBalance := w.heldBalance - min j.price w.heldBalance
            totalSpent := max 0 (w.totalSpent - min j.price w.heldBalance) }
          ledger := db.ledger ++ [t] } := by
  simp only [WalletService.refundJob, runs_bind, runs_walletGetForUpdate, runs_save, runs_transactionCreate]
  refine ⟨?_, ?_⟩
  · intro hrun
    obtain ⟨w, _, ⟨⟨_, ⟨⟩, hw⟩, rfl⟩, _, _, ⟨h2, rfl⟩, ⟨h3, h4, h5⟩, rfl, rfl⟩ := hrun
    simp only [List.forall_mem_cons, Wallet.col] at h2
    exact ⟨w, hw, ⟨h3, h4, h5, h2.2.1, h2.2.2.1⟩, rfl, rfl⟩
  · intro hrun
    obtain ⟨w, hw, ⟨h3, h4, h5, h6, h7⟩, rfl, rfl⟩ := hrun
    exact ⟨w, _, ⟨⟨_, rfl, hw⟩, rfl⟩, (), _, ⟨by simp [Wallet.col, h5, h6, h7], rfl⟩, ⟨h3, h4, h5⟩, rfl, rfl⟩

/-- what `release_job_payment` checks before and after its writes -/
structure ReleaseChecks (E : Env) (j : Job) (we ww : Wallet) : Prop where
  held : InBigint (we.heldBalance - j.price)
  commission : InBigint (calculateCommission E j.price none).1
  employer : InBigint we.balance
  payout : InBigint (calculateCommission E j.price none).2
  before : InBigint ww.balance
  after : InBigint (ww.balance + (calculateCommission E j.price none).2)
  earned : InBigint (ww.totalEarned + (calculateCommission E j.price none).2)

theorem runs_releaseJobPayment {ts : Transaction × Transaction} :
    Runs store (WalletService.releaseJobPayment E j) db ts db' ↔
      ∃ we worker ww, db.wallets.find j.employer = some we ∧ j.worker = some worker ∧
        db.wallets.find worker = some ww ∧ ReleaseChecks E j we ww ∧
        ts = (commissionRow E j we, releaseRow E j ww) ∧
        db' = { db with
          wallets := (db.wallets.update we.user fun r => { r with heldBalance := we.heldBalance - j.price }).update
            ww.user fun r => { r with
              balance := ww.balance + (calculateCommission E j.price none).2
              totalEarned := ww.totalEarned + (calculateCommission E j.price none).2 }
          ledger := db.ledger ++ [ts.1, ts.2] } := by
  simp only [WalletService.releaseJobPayment, runs_bind, runs_walletGetForUpdate, runs_save, runs_transactionCreate,
    runs_pure]
  refine ⟨?_, ?_⟩
  · intro hrun
    obtain ⟨we, _, ⟨⟨_, ⟨⟩, hwe⟩, rfl⟩, ww, _, ⟨⟨worker, hj, hww⟩, rfl⟩, _, _, ⟨h1, rfl⟩, _, _, ⟨h2, rfl, rfl⟩, _, _,
      ⟨h3, rfl⟩, _, _, ⟨h4, rfl, rfl⟩, rfl, rfl⟩ := hrun
    simp only [List.forall_mem_cons, Wallet.col] at h1 h3
    refine ⟨we, worker, ww, hwe, hj, hww, ⟨h1.1, h2.1, h2.2.1, h4.1, h4.2.1, h4.2.2, h3.2.1⟩, rfl, ?_⟩
    simp only [List.append_assoc, List.singleton_append]
    rfl
  · intro hrun
    obtain ⟨we, worker, ww, hwe, hj, hww, h, rfl, rfl⟩ := hrun
    refine ⟨we, _, ⟨⟨_, rfl, hwe⟩, rfl⟩, ww, db, ⟨⟨worker, hj, hww⟩, rfl⟩, (), _, ⟨by simp [Wallet.col, h.held], rfl⟩,
      _, _, ⟨⟨h.commission, h.employer, h.employer⟩, rfl, rfl⟩, (), _, ⟨by simp [Wallet.col, h.after, h.earned], rfl⟩,
      _, _, ⟨⟨h.payout, h.before, h.after⟩, rfl, rfl⟩, rfl, ?_⟩
    simp only [List.append_assoc, List.singleton_append]
    rfl

end WalletService

/-! ## Payment providers -/

inductive PaymentProvider where
  | mock
  | payme (p : PaymeProvider)
  | click (p : ClickProvider)
deriving DecidableEq, Repr

/-- `get_payment_provider`; none: a setting of the provider is missing and reading it raises AttributeError -/
def getPaymentProvider (E : Env) (providerName : String) : Option PaymentProvider :=
  if providerName = "payme" then E.payme.map .payme
  else if providerName = "click" then E.click.map .click
  else some .mock

/-- `create_payment`: the external id and the payment URL; `uuidHex` is what `uuid.uuid4().hex` returned -/
def createPayment (E : Env) (amount : ℤ) (orderId description uuidHex : String) : PaymentProvider → String × String
  | .mock =>
    let externalId := s!"mock_{uuidHex.take 12}"
    (externalId, s!"https://mock-payment.example.com/pay/{externalId}")
  | .payme p =>
    (orderId, s!"https://test.paycom.uz/{p.merchantId}?amount={amount}&order_id={orderId}&description={description}")
  | .click p =>
    -- the amount for Click is in UZS
    let amountUzs := E.py.floatStr (E.py.trueDiv amount 100)
    (orderId, s!"https://my.click.uz/services/pay?service_id={p.serviceId}&merchant_id={p.merchantId}"
      ++ s!"&amount={amountUzs}&transaction_param={orderId}&return_url=")

/-! ## DepositService -/

/-- `PaymentRequest.objects.create(...)`; `id` is the value of the table's sequence -/
def PaymentRequest.create (r : PaymentRequest) : Tx Unit := do
  raiseIf (¬ InBigint r.amount) .databaseError
  @Prog.create gig (.request r.id) r .databaseError

/-- what `initiate_deposit` returns -/
structure DepositResult where
  requestId : String
  paymentUrl : String
  amount : ℤ
  provider : String
deriving DecidableEq, Repr

def DepositService.initiateDeposit (E : Env) (id : Pk) (user : User) (amount : ℤ) (providerName uuidHex : String) :
    Tx DepositResult := do
  raiseIf (amount < E.minDeposit) (.validation s!"Minimum deposit is {E.minDeposit} tiyin.")
  raiseIf (amount > E.maxDeposit) (.validation s!"Maximum deposit is {E.maxDeposit} tiyin.")
  @present gig (.wallet user.id) (.doesNotExist "Wallet")
  PaymentRequest.create ⟨id, user.id, providerName, amount, .pending, "", ""⟩
  match getPaymentProvider E providerName with
  | none => raise .attributeError
  | some provider =>
    let result := createPayment E amount (toString id) "Deposit to GIG Marketplace wallet" uuidHex provider
    @set gig (.request id) fun r => { r with externalId := result.1, paymentUrl := result.2 }
    return ⟨toString id, result.2, amount, providerName⟩

/-- the primary key a lookup `id=value` asks for; none: no row can have it -/
def lookupId (py : Py) : Json → Except Exc (Option Pk)
  | .null => .ok none
  | .bool b => .ok (some (if b then 1 else 0))
  | .int n => .ok (some n)
  | .float x => match x.val with
    | some v => .ok (some (truncate v))
    | none => .error .overflowError
  | .str s => match py.int s with
    | some n => .ok (some n)
    | none => .error .valueError
  | .arr _ => .error .typeError
  | .obj _ => .error .typeError

def notPending : Exc := .validation "Payment request not found or already processed."

/-- `PaymentRequest.objects.select_for_update().select_related("wallet").get(id=..., status=PENDING)` -/
def PaymentRequest.getPending (id : Pk) : Tx PaymentRequest := do
  let r ← (@selectForUpdate gig (.request id) none (fun r : PaymentRequest => r.status = .pending) notPending :
    Tx PaymentRequest)
  let _ ← (@selectForUpdate gig (.wallet r.wallet) none (fun _ => true) notPending : Tx Wallet)
  return r

def DepositService.confirmDeposit (E : Env) (paymentRequestId : Json) (externalId : String) : Tx Transaction := do
  match lookupId E.py paymentRequestId with
  | .error e => raise e
  | .ok none => raise notPending
  | .ok (some id) =>
    let paymentRequest ← PaymentRequest.getPending id
    let wallet ← Wallet.getForUpdate (some paymentRequest.wallet)
    let tx ← WalletService.deposit E wallet paymentRequest.amount paymentRequest.provider
      (if externalId ≠ "" then externalId else paymentRequest.externalId) (some paymentRequest.id)
    @set gig (.request paymentRequest.id) fun r => { r with status := .completed }
    return tx

section DepositService

variable {E : Env} {db db' : DB} {t : Transaction}

@[simp] theorem runs_getPending {id : Pk} {r : PaymentRequest} :
    Runs store (PaymentRequest.getPending id) db r db' ↔
      db.requests.find id = some r ∧ r.status = .pending ∧ (db.wallets.find r.wallet).isSome ∧ db' = db := by
  simp only [PaymentRequest.getPending, runs_bind, runs_pure]
  refine ⟨?_, ?_⟩
  · intro hrun
    obtain ⟨r', _, h1, w, _, h2, rfl, rfl⟩ := hrun
    obtain ⟨hr, hp, rfl⟩ := (runs_selectForUpdate (S := gig) (k := .request id)).1 h1
    obtain ⟨hw, -, rfl⟩ := (runs_selectForUpdate (S := gig) (k := .wallet r.wallet)).1 h2
    rw [store_get, get_wallet] at hw
    exact ⟨hr, of_decide_eq_true hp, by rw [hw]; rfl, rfl⟩
  · intro hrun
    obtain ⟨hr, hp, hw, rfl⟩ := hrun
    obtain ⟨w, hw⟩ := Option.isSome_iff_exists.1 hw
    exact ⟨r, _, (runs_selectForUpdate (S := gig) (k := .request id)).2 ⟨hr, decide_eq_true hp, rfl⟩, w, _,
      (runs_selectForUpdate (S := gig) (k := .wallet r.wallet)).2 ⟨hw, rfl, rfl⟩, rfl, rfl⟩

/-- the columns `initiate_deposit` stores in the end -/
def newRequest (E : Env) (id : Pk) (user : Pk) (amount : ℤ) (providerName uuidHex : String) (p : PaymentProvider) :
    PaymentRequest :=
  let result := createPayment E amount (toString id) "Deposit to GIG Marketplace wallet" uuidHex p
  ⟨id, user, providerName, amount, .pending, result.1, result.2⟩

theorem runs_initiateDeposit {id : Pk} {user : User} {amount : ℤ} {providerName uuidHex : String}
    {res : DepositResult} :
    Runs store (DepositService.initiateDeposit E id user amount providerName uuidHex) db res db' ↔
      (E.minDeposit ≤ amount ∧ amount ≤ E.maxDeposit) ∧ (db.wallets.find user.id).isSome ∧ InBigint amount ∧
      db.requests.find id = none ∧ ∃ p, getPaymentProvider E providerName = some p ∧
        res = ⟨toString id, (newRequest E id user.id amount providerName uuidHex p).paymentUrl, amount, providerName⟩ ∧
        db' = { db with requests := db.requests.insert (newRequest E id user.id amount providerName uuidHex p) } := by
  have hset : ∀ p, db.requests.find id = none →
      (db.requests.insert ⟨id, user.id, providerName, amount, .pending, "", ""⟩).update id (fun r => { r with
        externalId := (newRequest E id user.id amount providerName uuidHex p).externalId
        paymentUrl := (newRequest E id user.id amount providerName uuidHex p).paymentUrl }) =
      db.requests.insert (newRequest E id user.id amount providerName uuidHex p) := fun p h =>
    Table.update_insert_self (r := (⟨id, user.id, providerName, amount, .pending, "", ""⟩ : PaymentRequest)) h rfl
  simp only [DepositService.initiateDeposit, PaymentRequest.create, runs_bind, runs_raiseIf, runs_present, runs_create,
    not_lt, not_not]
  refine ⟨?_, ?_⟩
  · intro hrun
    obtain ⟨_, _, ⟨h1, rfl⟩, _, _, ⟨h2, rfl⟩, _, _, ⟨h3, rfl⟩, _, _, ⟨_, _, ⟨h4, rfl⟩, h5, rfl⟩, h6⟩ := hrun
    cases hp : getPaymentProvider E providerName with
    | none => rw [hp] at h6; simp at h6
    | some p =>
      rw [hp] at h6
      simp only [runs_bind, runs_set, runs_pure] at h6
      obtain ⟨_, _, rfl, rfl, rfl⟩ := h6
      refine ⟨⟨h1, h2⟩, h3, h4, h5, p, rfl, rfl, ?_⟩
      rw [← hset p h5]; rfl
  · intro hrun
    obtain ⟨⟨h1, h2⟩, h3, h4, h5, p, hp, rfl, rfl⟩ := hrun
    refine ⟨(), _, ⟨h1, rfl⟩, (), _, ⟨h2, rfl⟩, (), _, ⟨h3, rfl⟩, (), _, ⟨(), _, ⟨h4, rfl⟩, h5, rfl⟩, ?_⟩
    rw [hp]
    simp only [runs_bind, runs_set, runs_pure]
    refine ⟨(), _, rfl, rfl, ?_⟩
    rw [← hset p h5]; rfl

/-- the row `confirm_deposit` adds for the request `r` with the wallet `w` -/
def confirmRow (r : PaymentRequest) (w : Wallet) (externalId : String) : Transaction :=
  depositRow w.user r.amount w.balance (w.balance + r.amount) r.provider
    (if externalId ≠ "" then externalId else r.externalId) (some r.id)

theorem runs_confirmDeposit {v : Json} {externalId : String} :
    Runs store (DepositService.confirmDeposit E v externalId) db t db' ↔
      ∃ r w, lookupId E.py v = .ok (some r.id) ∧ db.requests.find r.id = some r ∧ r.status = .pending ∧
        db.wallets.find r.wallet = some w ∧ (E.minDeposit ≤ r.amount ∧ r.amount ≤ E.maxDeposit) ∧
        (InBigint r.amount ∧ InBigint w.balance ∧ InBigint (w.balance + r.amount)) ∧ t = confirmRow r w externalId ∧
        db' = { db with
          wallets := db.wallets.update r.wallet fun x => { x with balance := w.balance + r.amount }
          requests := db.requests.update r.id fun x => { x with status := .completed }
          ledger := db.ledger ++ [t] } := by
  unfold DepositService.confirmDeposit
  refine ⟨?_, ?_⟩
  · intro h
    cases hv : lookupId E.py v with
    | error e => rw [hv] at h; simp at h
    | ok o =>
      cases o with
      | none => rw [hv] at h; simp at h
      | some id =>
        rw [hv] at h
        simp only [runs_bind, runs_getPending, runs_walletGetForUpdate, runs_deposit, runs_set, runs_pure] at h
        obtain ⟨r, _, ⟨h1, h2, h3, rfl⟩, w, _, ⟨⟨_, ⟨⟩, hw⟩, rfl⟩, _, _, ⟨h4, h5, rfl, rfl⟩, _, _, rfl, rfl, rfl⟩ := h
        cases Table.pk_of_find h1
        have hwu : w.user = r.wallet := Table.pk_of_find hw
        refine ⟨r, w, rfl, h1, h2, hw, h4, h5, rfl, ?_⟩
        rw [hwu]; rfl
  · intro hrun
    obtain ⟨r, w, hv, hr, hp, hw, h1, h2, rfl, rfl⟩ := hrun
    have hwu : w.user = r.wallet := Table.pk_of_find hw
    rw [hv]
    simp only [runs_bind, runs_getPending, runs_walletGetForUpdate, runs_deposit, runs_set, runs_pure]
    refine ⟨r, db, ⟨hr, hp, by rw [hw]; rfl, rfl⟩, w, db, ⟨⟨_, rfl, hw⟩, rfl⟩, _, _, ⟨h1, h2, rfl, rfl⟩, (), _, rfl,
      rfl, ?_⟩
    rw [confirmRow, hwu]; rfl

end DepositService

end GigMarketplace
