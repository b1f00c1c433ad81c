/-
The ledger (`payments_transactions`): totals, the rows of each job, and the balances written on the rows.

Results, for every state that the operations reach:
- `conservation_of_money`: what all wallets hold, available or in escrow, plus the commission taken, is what was
  deposited, which is the amount of the COMPLETED payment requests;
- `single_settlement`: the rows that reference a job are exactly those its status calls for, so no job is paid out or
  refunded twice, or both;
- `rows_explain_balances`: every row but a commission's shows the change of the balance it made, and a wallet's rows
  without the commissions add up to its balance. A commission is taken out of the held balance, so its row shows the
  available balance unchanged (`commission_row_no_change`: the general law fails at a completed job).

The totals come from `Escrow.conservation`; the rows are followed step by step.
-/
import GigMarketplace.Escrow

namespace GigMarketplace

open GigMarketplace.Core

/-! ## Totals -/

/-- amount of all rows of one type -/
def ledgerSum (db : DB) (type : TransactionType) : ℤ :=
  ((db.ledger.filter fun t => t.transactionType = type).map (·.amount)).sum

/-- commission of the completed jobs -/
def commissions (E : Env) (db : DB) : ℤ :=
  db.jobs.sum fun j => if j.status = .completed then (calculateCommission E j.price none).1 else 0

/-- amount of the COMPLETED payment requests -/
def completedDeposits (db : DB) : ℤ := db.requests.sum fun r => if r.status = .completed then r.amount else 0

structure Totals (E : Env) (db : DB) : Prop where
  commission : ledgerSum db .commission = commissions E db
  deposit : ledgerSum db .deposit = completedDeposits db

section Totals

variable {E : Env} {db db' : DB} {op : Op}

theorem ledgerSum_append {l : List Transaction} (h : db'.ledger = db.ledger ++ l) (type : TransactionType) :
    ledgerSum db' type = ledgerSum db type + ((l.filter fun t => t.transactionType = type).map (·.amount)).sum := by
  simp [ledgerSum, h]

/-- a move that neither starts nor ends at COMPLETED leaves the commissions -/
theorem commissions_update {j : Job} {f : Job → Job} (hj : db.jobs.find j.id = some j) (hid : (f j).id = j.id)
    (hjobs : db'.jobs = db.jobs.update j.id f) (hold : j.status ≠ .completed) :
    commissions E db' = commissions E db +
      if (f j).status = .completed then (calculateCommission E (f j).price none).1 else 0 := by
  unfold commissions
  rw [hjobs, Table.sum_update _ hj hid, if_neg hold, sub_zero]

theorem Job.isOpen.not_completed {j : Job} (h : j.isOpen) : j.status ≠ .completed := by
  rcases h with h | h | h <;> simp [h]

theorem totals_step (h : Totals E db) (hs : Step E db op db') : Totals E db' := by
  obtain ⟨hc, hd⟩ := h
  cases hs with
  | @createJob id employer data now w hrole hprice huser hfresh hw hcover hcols =>
    refine ⟨?_, ?_⟩
    · rw [ledgerSum_append rfl, hc]
      unfold commissions
      rw [Table.sum_insert (r := newJob id employer data now) _ hfresh]
      simp [newJob, paymentRow, internalRow]
    · rw [ledgerSum_append rfl, hd]
      simp [completedDeposits, paymentRow, internalRow]
  | @acceptJob jobId worker now j hj hrole hstatus hown huser =>
    refine ⟨?_, hd⟩
    rw [commissions_update hj.row rfl rfl (by simp [hstatus])]
    simpa [ledgerSum] using hc
  | @startJob jobId worker now j hj hworker hstatus =>
    refine ⟨?_, hd⟩
    rw [commissions_update hj.row rfl rfl (by simp [hstatus])]
    simpa [ledgerSum] using hc
  | @completeJob jobId employer now j we ww worker hj hrole hemployer hstatus hworker hwe hww hcols =>
    refine ⟨?_, ?_⟩
    · rw [commissions_update hj.row rfl rfl (by simp [hstatus]), ledgerSum_append rfl, hc]
      simp [commissionRow, releaseRow, internalRow]
    · rw [ledgerSum_append rfl, hd]
      simp [completedDeposits, commissionRow, releaseRow, internalRow]
  | @cancelJob jobId user reason now j w hj hcaller hopen hw hcols =>
    refine ⟨?_, ?_⟩
    · rw [commissions_update hj.row rfl rfl hopen.not_completed, ledgerSum_append rfl, hc]
      simp [refundRow, internalRow]
    · rw [ledgerSum_append rfl, hd]
      simp [completedDeposits, refundRow, internalRow]
  | @initiateDeposit id user amount providerName uuidHex p hlimits hw hcols hfresh hp =>
    refine ⟨hc, ?_⟩
    unfold completedDeposits
    rw [Table.sum_insert (r := newRequest E id user.id amount providerName uuidHex p) _ hfresh]
    simpa [newRequest, ledgerSum, completedDeposits] using hd
  | @confirmDeposit v externalId r w hid hr hstatus hw hlimits hcols =>
    refine ⟨?_, ?_⟩
    · rw [ledgerSum_append rfl, hc]
      simp [commissions, confirmRow, depositRow]
    · rw [ledgerSum_append rfl, hd]
      unfold completedDeposits
      rw [Table.sum_update (f := fun x => { x with status := .completed }) _ hr rfl]
      simp [hstatus, confirmRow, depositRow]

theorem totals_run (E : Env) (users : Table User) (ops : List Op) : Totals E (run E (init users) ops) :=
  run_inv (fun _ _ _ h hs => totals_step h hs) ⟨rfl, rfl⟩ ops

theorem book_charged (E : Env) (db : DB) : (book E db).charged = commissions E db := by
  simp only [Escrow.Book.charged, book, bookOf, commissions, Table.sum, Multiset.map_coe, Multiset.sum_coe,
    List.map_map]
  refine congrArg List.sum (List.map_congr_left fun j _ => ?_)
  simp only [Function.comp, Escrow.Deal.charged, Job.deal, phase_paid]

theorem book_deposited (E : Env) (db : DB) : (book E db).deposited = completedDeposits db :=
  sum_deposits E db Prod.snd

/-- the users who own a wallet -/
def owners (db : DB) : Finset Pk := (db.wallets.rows.map pk).toFinset

/-- everyone the book owes anything to has a wallet -/
theorem Linked.within (h : Linked db) : (book E db).Within (owners db) := by
  have hmem : ∀ u, (db.wallets.find u).isSome → u ∈ owners db := fun u hu => by
    obtain ⟨w, hw⟩ := Option.isSome_iff_exists.1 hu
    exact List.mem_toFinset.2 (List.mem_map.2 ⟨w, Table.mem_of_find hw, Table.pk_of_find hw⟩)
  refine ⟨fun d hd => ?_, fun d hd hpaid => ?_, fun p hp => ?_⟩
  · obtain ⟨j, hj, rfl⟩ := mem_deals.1 hd
    refine hmem _ ?_
    rw [h.wallets]
    exact (h.jobs j hj).employer
  · obtain ⟨j, hj, rfl⟩ := mem_deals.1 hd
    have hcompleted : j.status = .completed := (phase_paid _).1 hpaid
    obtain ⟨u, hu⟩ := Option.ne_none_iff_exists'.1 ((h.jobs j hj).assigned (Or.inr (Or.inr hcompleted)))
    refine ⟨u, hmem u ?_, hu⟩
    rw [h.wallets]
    exact ((h.jobs j hj).worker u hu).1
  · obtain ⟨r, hr, -, rfl⟩ := mem_deposits.1 hp
    exact hmem _ (h.requests r hr)

/-- what all wallets show of one column is what the book says of their owners -/
theorem Inv.sum_owners (h : Inv E db) (f : Escrow.Figure) :
    ∑ u ∈ owners db, (book E db).figure u f = db.wallets.sum (·.figure f) := by
  unfold owners Table.sum
  rw [List.sum_toFinset _ db.wallets.nodup, List.map_map]
  refine congrArg List.sum (List.map_congr_left fun w hw => ?_)
  exact (h.figures w.user w (Table.find_of_mem hw) f).symm

end Totals

/-- **Conservation of money.** -/
theorem conservation_of_money (E : Env) (users : Table User) (ops : List Op) :
    (run E (init users) ops).wallets.sum (fun w => w.balance + w.heldBalance) +
        ledgerSum (run E (init users) ops) .commission = ledgerSum (run E (init users) ops) .deposit ∧
      ledgerSum (run E (init users) ops) .deposit = completedDeposits (run E (init users) ops) := by
  have hinv := inv_run E users ops
  have htot := totals_run E users ops
  generalize run E (init users) ops = db at hinv htot ⊢
  have hcons := Escrow.conservation (book E db) hinv.linked.within
  rw [book_charged, book_deposited, Finset.sum_add_distrib, hinv.sum_owners, hinv.sum_owners] at hcons
  have hsplit : db.wallets.sum (fun w => w.balance + w.heldBalance) =
      db.wallets.sum (·.figure .available) + db.wallets.sum (·.figure .held) := Table.sum_add ..
  exact ⟨by rw [htot.commission, htot.deposit, hsplit]; exact hcons, htot.deposit⟩

/-! ## The rows of a job -/

def jobRows (db : DB) (i : Pk) : List Transaction := db.ledger.filter fun t => t.job = some i

structure RowIs (t : Transaction) (wallet : Pk) (type : TransactionType) (direction : Direction) (amount : ℤ) :
    Prop where
  wallet : t.wallet = wallet
  type : t.transactionType = type
  direction : t.direction = direction
  amount : t.amount = amount

/-- the rows that the status of a job calls for -/
def Accounted (j : Job) (rows : List Transaction) : Prop :=
  ∃ pay, RowIs pay j.employer .jobPayment .debit j.price ∧
    match j.status with
    | .created => rows = [pay]
    | .accepted => rows = [pay]
    | .inProgress => rows = [pay]
    | .completed => ∃ commission release worker, j.worker = some worker ∧
        RowIs commission j.employer .commission .debit commission.amount ∧
        RowIs release worker .jobRelease .credit release.amount ∧ commission.amount + release.amount = j.price ∧
        rows = [pay, commission, release]
    | .cancelled => ∃ refund, RowIs refund j.employer .refund .credit j.price ∧ rows = [pay, refund]

theorem accounted_open {j : Job} (h : j.isOpen) {rows : List Transaction} :
    Accounted j rows ↔ ∃ pay, RowIs pay j.employer .jobPayment .debit j.price ∧ rows = [pay] := by
  unfold Accounted
  rcases h with h | h | h <;> simp only [h]

structure JobLedger (db : DB) : Prop where
  /-- no row references a job that does not exist -/
  known : ∀ t ∈ db.ledger, ∀ i, t.job = some i → (db.jobs.find i).isSome
  accounted : ∀ j ∈ db.jobs.rows, Accounted j (jobRows db j.id)

section JobLedger

variable {E : Env} {db db' : DB} {op : Op}

theorem jobRows_append {l : List Transaction} (h : db'.ledger = db.ledger ++ l) (i : Pk) :
    jobRows db' i = jobRows db i ++ l.filter fun t => t.job = some i := by
  simp [jobRows, h]

theorem filter_same {l : List Transaction} {i : Pk} (h : ∀ t ∈ l, t.job = some i) :
    l.filter (fun t => t.job = some i) = l :=
  List.filter_eq_self.2 fun t ht => by simp [h t ht]

theorem filter_other {l : List Transaction} {i : Pk} (h : ∀ t ∈ l, t.job ≠ some i) :
    l.filter (fun t => t.job = some i) = [] :=
  List.filter_eq_nil_iff.2 fun t ht => by simp [h t ht]

/-- a step moves the job `j` and writes `l` about it -/
theorem JobLedger.moved (h : JobLedger db) {j : Job} {f : Job → Job} {l : List Transaction}
    (hj : db.jobs.find j.id = some j) (hid : (f j).id = j.id) (hjobs : db'.jobs = db.jobs.update j.id f)
    (hledger : db'.ledger = db.ledger ++ l) (hl : ∀ t ∈ l, t.job = some j.id)
    (hacc : Accounted (f j) (jobRows db j.id ++ l)) : JobLedger db' where
  known := fun t ht i hi => by
    rw [hjobs, Table.isSome_find_update]
    rw [hledger] at ht
    rcases List.mem_append.1 ht with ht | ht
    · exact h.known t ht i hi
    · have hij : j.id = i := Option.some.inj ((hl t ht).symm.trans hi)
      rw [← hij, hj]; rfl
  accounted := fun k hk => by
    rw [hjobs, Table.mem_update hj hid] at hk
    rw [jobRows_append hledger]
    rcases hk with rfl | ⟨hk, hne⟩
    · rw [hid, filter_same hl]; exact hacc
    · have hother : ∀ t ∈ l, t.job ≠ some k.id := fun t ht he => hne (Option.some.inj (he.symm.trans (hl t ht)))
      rw [filter_other hother, List.append_nil]
      exact h.accounted k hk

/-- a step that neither touches a job nor writes about one -/
theorem JobLedger.unmoved (h : JobLedger db) {l : List Transaction} (hjobs : db'.jobs = db.jobs)
    (hledger : db'.ledger = db.ledger ++ l) (hl : ∀ t ∈ l, t.job = none) : JobLedger db' where
  known := fun t ht i hi => by
    rw [hjobs]
    rw [hledger] at ht
    rcases List.mem_append.1 ht with ht | ht
    · exact h.known t ht i hi
    · rw [hl t ht] at hi; cases hi
  accounted := fun k hk => by
    rw [hjobs] at hk
    rw [jobRows_append hledger, filter_other fun t ht => by rw [hl t ht]; simp, List.append_nil]
    exact h.accounted k hk

/-- a step that adds the job `j` and writes one row about it -/
theorem JobLedger.created (h : JobLedger db) {j : Job} {t : Transaction} (hfresh : db.jobs.find j.id = none)
    (hjobs : db'.jobs = db.jobs.insert j) (hledger : db'.ledger = db.ledger ++ [t]) (ht : t.job = some j.id)
    (hacc : Accounted j [t]) : JobLedger db' where
  known := fun t' ht' i hi => by
    rw [hjobs, Table.find_insert]
    split_ifs with he
    · rfl
    · rw [hledger] at ht'
      rcases List.mem_append.1 ht' with hold | hnew
      · exact h.known t' hold i hi
      · rw [List.mem_singleton.1 hnew, ht] at hi
        exact absurd (Option.some.inj hi) he
  accounted := fun k hk => by
    rw [hjobs, Table.mem_insert hfresh] at hk
    rw [jobRows_append hledger]
    rcases hk with hk | rfl
    · have hne : j.id ≠ k.id := fun he => Table.find_eq_none.1 hfresh k hk he.symm
      rw [filter_other (by simp [ht, hne]), List.append_nil]
      exact h.accounted k hk
    · -- the id is fresh: no row references it yet
      have hnone : jobRows db k.id = [] := filter_other fun t ht he => by
        have hsome := h.known t ht k.id he
        rw [hfresh] at hsome
        cases hsome
      rw [filter_same fun t' ht' => by rw [List.mem_singleton.1 ht']; exact ht, hnone]
      exact hacc

theorem jobLedger_step (hinv : Inv E db) (h : JobLedger db) (hs : Step E db op db') : JobLedger db' := by
  cases hs with
  | @createJob id employer data now w hrole hprice huser hfresh hw hcover hcols =>
    have huw : w.user = employer.id := Table.pk_of_find hw
    exact h.created (j := newJob id employer data now) hfresh rfl rfl rfl ⟨_, ⟨huw, rfl, rfl, rfl⟩, rfl⟩
  | @acceptJob jobId worker now j hj hrole hstatus hown huser =>
    obtain ⟨pay, hpay, hrows⟩ := (accounted_open (Or.inl hstatus)).1 (h.accounted j (Table.mem_of_find hj.row))
    refine h.moved hj.row rfl rfl (List.append_nil _).symm (by simp) ?_
    rw [List.append_nil, hrows]
    exact ⟨pay, hpay, rfl⟩
  | @startJob jobId worker now j hj hworker hstatus =>
    have hopen : j.isOpen := Or.inr (Or.inl hstatus)
    obtain ⟨pay, hpay, hrows⟩ := (accounted_open hopen).1 (h.accounted j (Table.mem_of_find hj.row))
    refine h.moved hj.row rfl rfl (List.append_nil _).symm (by simp) ?_
    rw [List.append_nil, hrows]
    exact ⟨pay, hpay, rfl⟩
  | @completeJob jobId employer now j we ww worker hj hrole hemployer hstatus hworker hwe hww hcols =>
    have hopen : j.isOpen := Or.inr (Or.inr hstatus)
    obtain ⟨pay, hpay, hrows⟩ := (accounted_open hopen).1 (h.accounted j (Table.mem_of_find hj.row))
    refine h.moved hj.row rfl rfl rfl (by simp [commissionRow, releaseRow, internalRow]) ?_
    rw [hrows]
    exact ⟨pay, hpay, commissionRow E j we, releaseRow E j ww, worker, hworker,
      ⟨Table.pk_of_find hwe, rfl, rfl, rfl⟩, ⟨Table.pk_of_find hww, rfl, rfl, rfl⟩,
      calculateCommission_add E j.price none, rfl⟩
  | @cancelJob jobId user reason now j w hj hcaller hopen hw hcols =>
    obtain ⟨pay, hpay, hrows⟩ := (accounted_open hopen).1 (h.accounted j (Table.mem_of_find hj.row))
    obtain ⟨hheld, -⟩ := hinv.covered hj.row hopen hw
    refine h.moved hj.row rfl rfl rfl (by simp [refundRow, internalRow]) ?_
    rw [hrows]
    -- the refund is not clipped: the escrow covers the job
    exact ⟨pay, hpay, refundRow j w, ⟨Table.pk_of_find hw, rfl, rfl, min_eq_left hheld⟩, rfl⟩
  | @initiateDeposit id user amount providerName uuidHex p hlimits hw hcols hfresh hp =>
    exact h.unmoved rfl (List.append_nil _).symm (by simp)
  | @confirmDeposit v externalId r w hid hr hstatus hw hlimits hcols =>
    exact h.unmoved rfl rfl (by simp [confirmRow, depositRow])

theorem jobLedger_run (E : Env) (users : Table User) (ops : List Op) : JobLedger (run E (init users) ops) := by
  have h : Inv E (run E (init users) ops) ∧ JobLedger (run E (init users) ops) := by
    refine run_inv (P := fun db => Inv E db ∧ JobLedger db)
      (fun _ _ _ h hs => ⟨inv_step h.1 hs, jobLedger_step h.1 h.2 hs⟩) ⟨inv_init E users, ?_, ?_⟩ ops
    · intro t ht; simp [init] at ht
    · intro j hj; simp [init, Table.empty] at hj
  exact h.2

/-- the rows that end a job: a payout or a refund -/
def Transaction.settles (t : Transaction) : Bool :=
  t.transactionType = .jobRelease ∨ t.transactionType = .refund

theorem Accounted.settles_once {j : Job} {rows : List Transaction} (h : Accounted j rows) :
    rows.countP Transaction.settles ≤ 1 := by
  obtain ⟨pay, hpay, hrows⟩ := h
  have h0 : pay.settles = false := by simp [Transaction.settles, hpay.type]
  cases hs : j.status with
  | completed =>
    rw [hs] at hrows
    obtain ⟨c, r, worker, -, hc, hr, -, rfl⟩ := hrows
    have h1 : c.settles = false := by simp [Transaction.settles, hc.type]
    have h2 : r.settles = true := by simp [Transaction.settles, hr.type]
    simp [h0, h1, h2]
  | cancelled =>
    rw [hs] at hrows
    obtain ⟨r, hr, rfl⟩ := hrows
    have h1 : r.settles = true := by simp [Transaction.settles, hr.type]
    simp [h0, h1]
  | _ =>
    rw [hs] at hrows
    simp only at hrows
    rw [hrows]; simp [h0]

end JobLedger

/-- **Single settlement.** The rows that reference a job are exactly those its status calls for; at most one of them
is a payout or a refund. -/
theorem single_settlement (E : Env) (users : Table User) (ops : List Op) (j : Job)
    (hj : j ∈ (run E (init users) ops).jobs.rows) :
    Accounted j (jobRows (run E (init users) ops) j.id) ∧
      (jobRows (run E (init users) ops) j.id).countP Transaction.settles ≤ 1 := by
  have h := (jobLedger_run E users ops).accounted j hj
  exact ⟨h, h.settles_once⟩

/-- the job of `demoPaid` -/
def demoJobPaid : Job :=
  { newJob 1 demoEmployer demoJob 0 with
    worker := some 2, status := .completed, acceptedAt := some 1, startedAt := some 2, completedAt := some 3 }

theorem single_settlement_demo :
    Accounted demoJobPaid (jobRows (run demoEnv (init demoUsers) demoPaid) demoJobPaid.id) :=
  (single_settlement demoEnv demoUsers demoPaid demoJobPaid (by decide +kernel)).1

/-! ## Balances on the rows -/

/-- the amount with the sign of its direction -/
def Transaction.signed (t : Transaction) : ℤ :=
  match t.direction with
  | .credit => t.amount
  | .debit => -t.amount

/-- the row shows the change of the balance that it makes -/
def Transaction.Explains (t : Transaction) : Prop := t.balanceAfter = t.balanceBefore + t.signed

instance (t : Transaction) : Decidable t.Explains := by unfold Transaction.Explains; infer_instance

/-- what a row does to the available balance of the wallet `u`: a commission comes out of the held balance -/
def Transaction.effect (t : Transaction) (u : Pk) : ℤ :=
  if t.wallet = u ∧ t.transactionType ≠ .commission then t.signed else 0

/-- signed sum of the rows of the wallet `u`, without commissions -/
def net (db : DB) (u : Pk) : ℤ := (db.ledger.map fun t => t.effect u).sum

structure Explained (db : DB) : Prop where
  rows : ∀ t ∈ db.ledger, if t.transactionType = .commission then t.balanceAfter = t.balanceBefore else t.Explains
  net : ∀ u w, db.wallets.find u = some w → net db u = w.balance

section Explained

variable {E : Env} {db db' : DB} {op : Op}

theorem net_append {l : List Transaction} (h : db'.ledger = db.ledger ++ l) (u : Pk) :
    net db' u = net db u + (l.map fun t => t.effect u).sum := by
  simp [net, h]

/-- one row is written, and the balance of its wallet follows it; a commission's row leaves the balance -/
theorem Explained.posted (h : Explained db) {owner : Pk} {w : Wallet} {f : Wallet → Wallet} {t : Transaction}
    (hw : db.wallets.find owner = some w) (hid : (f w).user = w.user)
    (hwallets : db'.wallets = db.wallets.update owner f) (hledger : db'.ledger = db.ledger ++ [t])
    (hrow : if t.transactionType = .commission then t.balanceAfter = t.balanceBefore else t.Explains)
    (howner : t.wallet = owner) (hbalance : (f w).balance = w.balance + t.effect owner) : Explained db' where
  rows := fun x hx => by
    rw [hledger] at hx
    rcases List.mem_append.1 hx with hx | hx
    · exact h.rows x hx
    · rw [List.mem_singleton.1 hx]; exact hrow
  net := fun u w' hw' => by
    rw [net_append hledger, List.map_singleton, List.sum_singleton]
    rw [hwallets] at hw'
    by_cases hu : owner = u
    · subst hu
      rw [Table.find_update_self hw hid] at hw'
      cases hw'
      rw [h.net owner w hw, hbalance]
    · rw [Table.find_update_ne hu] at hw'
      have hzero : t.effect u = 0 := if_neg fun he => hu (howner.symm.trans he.1)
      rw [h.net u w' hw', hzero, add_zero]

theorem explained_step (hl : Linked db) (h : Explained db) (hs : Step E db op db') : Explained db' := by
  cases hs with
  | @createJob id employer data now w hrole hprice huser hfresh hw hcover hcols =>
    have huw : w.user = employer.id := Table.pk_of_find hw
    refine h.posted hw rfl rfl rfl ?_ huw ?_
    · simp [paymentRow, internalRow, Transaction.Explains, Transaction.signed, sub_eq_add_neg]
    · simp [paymentRow, internalRow, Transaction.effect, Transaction.signed, newJob, huw, sub_eq_add_neg]
  | @completeJob jobId employer now j we ww worker hj hrole hemployer hstatus hworker hwe hww hcols =>
    have hne : worker ≠ j.employer := ((hl.jobs j (Table.mem_of_find hj.row)).worker worker hworker).2
    have huwe : we.user = j.employer := Table.pk_of_find hwe
    have huww : ww.user = worker := Table.pk_of_find hww
    -- the commission out of the employer's held balance, then the payout to the worker
    have hcharged : Explained { db with
        wallets := db.wallets.update j.employer fun r => { r with heldBalance := we.heldBalance - j.price }
        ledger := db.ledger ++ [commissionRow E j we] } := by
      refine h.posted hwe rfl rfl rfl ?_ huwe ?_
      · simp [commissionRow, internalRow]
      · simp [commissionRow, internalRow, Transaction.effect]
    refine hcharged.posted (w := ww) (t := releaseRow E j ww) ?_ rfl rfl ?_ ?_ huww ?_
    · exact (Table.find_update_ne hne.symm).trans hww
    · simp
    · simp [releaseRow, internalRow, Transaction.Explains, Transaction.signed]
    · simp [releaseRow, internalRow, Transaction.effect, Transaction.signed, huww]
  | @cancelJob jobId user reason now j w hj hcaller hopen hw hcols =>
    have huw : w.user = j.employer := Table.pk_of_find hw
    refine h.posted hw rfl rfl rfl ?_ huw ?_
    · simp [refundRow, internalRow, Transaction.Explains, Transaction.signed]
    · simp [refundRow, internalRow, Transaction.effect, Transaction.signed, huw]
  | @confirmDeposit v externalId r w hid hr hstatus hw hlimits hcols =>
    have huw : w.user = r.wallet := Table.pk_of_find hw
    refine h.posted hw rfl rfl rfl ?_ huw ?_
    · simp [confirmRow, depositRow, Transaction.Explains, Transaction.signed]
    · simp [confirmRow, depositRow, Transaction.effect, Transaction.signed, huw]
  | _ => exact ⟨h.rows, h.net⟩

theorem explained_run (E : Env) (users : Table User) (ops : List Op) : Explained (run E (init users) ops) := by
  have h : Linked (run E (init users) ops) ∧ Explained (run E (init users) ops) := by
    refine run_inv (P := fun db => Linked db ∧ Explained db)
      (fun _ _ _ h hs => ⟨linked_step h.1 hs, explained_step h.1 h.2 hs⟩) ⟨linked_init users, ?_, ?_⟩ ops
    · intro t ht; simp [init] at ht
    · intro u w hw
      rw [find_init_wallets] at hw
      obtain ⟨x, -, rfl⟩ := Option.map_eq_some_iff.1 hw
      rfl
  exact h.2

end Explained

/-- **Rows and balances.** Every row but a commission's shows the change of the balance that it makes, a commission's
shows none, and the rows of a wallet without its commissions add up to its balance. -/
theorem rows_explain_balances (E : Env) (users : Table User) (ops : List Op) :
    (∀ t ∈ (run E (init users) ops).ledger,
      if t.transactionType = .commission then t.balanceAfter = t.balanceBefore else t.Explains) ∧
    ∀ w ∈ (run E (init users) ops).wallets.rows,
      (((run E (init users) ops).ledger.filter fun t => t.wallet = w.user ∧ t.transactionType ≠ .commission).map
        Transaction.signed).sum = w.balance := by
  have h := explained_run E users ops
  refine ⟨h.rows, fun w hw => ?_⟩
  rw [← h.net w.user w (Table.find_of_mem hw)]
  unfold net
  induction (run E (init users) ops).ledger with
  | nil => rfl
  | cons t l ih =>
    rw [List.map_cons, List.sum_cons, List.filter_cons]
    split_ifs with ht
    · rw [List.map_cons, List.sum_cons, ih, Transaction.effect, if_pos (of_decide_eq_true ht)]
    · rw [ih, Transaction.effect, if_neg (by simpa using ht), zero_add]

theorem rows_explain_balances_demo :
    ∀ t ∈ (run demoEnv (init demoUsers) demoPaid).ledger,
      if t.transactionType = .commission then t.balanceAfter = t.balanceBefore else t.Explains :=
  (rows_explain_balances demoEnv demoUsers demoPaid).1

/-- The commission of a completed job is a debit whose row leaves the balance: 10000 out of 399995. -/
theorem commission_row_no_change :
    ¬ ∀ t ∈ (run demoEnv (init demoUsers) demoPaid).ledger, t.Explains := by decide +kernel

end GigMarketplace
