/-
TransactionListView of `apps/payments/views.py`: the transaction history of a user, page by page.

The view filters by `type` if the value is in `[t.value for t in Transaction.transaction_type.field.choices]`. The
choices of a model field are the pairs (value, label) of `TransactionType.choices`, not members of the enumeration, and
a pair has no attribute `value`: the comprehension raises at its first element, before anything is compared.

A page is a request of its own (`Pagination.lean`); rows of one moment may change places from one page to the next.
Left out: how TransactionSerializer prints a row.

Results:
- `typed_raises`: with any other `type` than the empty string the view raises, whatever the ledger;
- `history_exact_iff`: the history is total and exact iff no `type` is given, or the empty one, and no rows of one
  moment lie on two pages.
-/
import GigMarketplace.Pagination
import GigMarketplace.Payments

namespace GigMarketplace

open GigMarketplace.Core StandardResultsPagination

/-! ## Types -/

def TransactionType.value : TransactionType → String
  | .deposit => "deposit"
  | .jobPayment => "job_payment"
  | .jobRelease => "job_release"
  | .commission => "commission"
  | .refund => "refund"
  | .withdrawal => "withdrawal"

def TransactionType.label : TransactionType → String
  | .deposit => "Deposit"
  | .jobPayment => "Job Payment (Escrow)"
  | .jobRelease => "Job Release (Worker Payout)"
  | .commission => "Platform Commission"
  | .refund => "Refund"
  | .withdrawal => "Withdrawal"

/-- the members, in the order of the class -/
def TransactionType.members : List TransactionType :=
  [.deposit, .jobPayment, .jobRelease, .commission, .refund, .withdrawal]

/-- `TransactionType.choices`, which the field takes over -/
def TransactionType.choices : List (String × String) := members.map fun t => (t.value, t.label)

/-- `t.value` of a pair -/
def pairValue (_ : String × String) : Except Exc String := .error .attributeError

/-! ## The view -/

/-- a row of payments_transactions with the columns that the history needs besides -/
structure HistoryRow where
  id : Pk
  createdAt : Time
  transaction : Transaction
deriving DecidableEq, Repr

instance : Keyed HistoryRow Pk := ⟨HistoryRow.id, fun t k => { t with id := k }, fun _ _ => rfl, fun _ => rfl⟩

/-- `rows` in the order in which the engine reads them for this request -/
def TransactionListView.get (P : PageSettings) (user : Pk) (rows : List HistoryRow) (txType : Option String)
    (q : PageQuery) : Except Exc (Page HistoryRow) := do
  let qs := rows.filter fun t => t.transaction.wallet = user
  let qs ←
    if txType.getD "" ≠ "" then do
      let values ← TransactionType.choices.mapM pairValue
      if txType.getD "" ∈ values then
        pure (qs.filter fun t => t.transaction.transactionType.value = txType.getD "")
      else pure qs
    else pure qs
  -- a queryset is lazy: the ordering is that of the query as a whole
  paginate P q (sortOn HistoryRow.createdAt true qs)

/-! ## The whole history -/

/-- the caller's rows; of one type, if `type` is the value of one -/
def wanted (user : Pk) (txType : Option String) (t : HistoryRow) : Prop :=
  t.transaction.wallet = user ∧
    ∀ ty ∈ TransactionType.members, txType = some ty.value → t.transaction.transactionType = ty

instance (user : Pk) (txType : Option String) : DecidablePred (wanted user txType) := fun t => by
  unfold wanted
  infer_instance

/-- the pages are answered, and together they are the rows wanted, newest first -/
def HistoryExact (P : PageSettings) (ledger : Table HistoryRow) (user : Pk) (txType : Option String)
    (pageSize : Option ℤ) (reads : ℕ → List HistoryRow) : Prop :=
  ∃ found, Answered (fun n => TransactionListView.get P user (reads n) txType ⟨n, pageSize⟩) found ∧
    found.Perm (ledger.rows.filter fun t => wanted user txType t) ∧
    found.Pairwise fun t t' => t'.createdAt ≤ t.createdAt

/-- the caller's rows -/
def own (user : Pk) (ledger : Table HistoryRow) : List HistoryRow :=
  ledger.rows.filter fun t => t.transaction.wallet = user

section

variable {P : PageSettings} {ledger : Table HistoryRow} {user : Pk} {txType : Option String} {pageSize : Option ℤ}
  {rows : List HistoryRow} {reads : ℕ → List HistoryRow} {q : PageQuery}

/-- the comprehension fails at the first pair -/
theorem typed_raises (htype : txType.getD "" ≠ "") :
    TransactionListView.get P user rows txType q = .error .attributeError := by
  have hvalues : TransactionType.choices.mapM pairValue = .error .attributeError := rfl
  unfold TransactionListView.get
  rw [if_pos htype, hvalues]
  rfl

theorem typed_not_exact (htype : txType.getD "" ≠ "") : ¬ HistoryExact P ledger user txType pageSize reads := by
  rintro ⟨found, ⟨first, hfirst, -⟩, -⟩
  have hraises : TransactionListView.get P user (reads 1) txType ⟨(1 : ℕ), pageSize⟩ = .error .attributeError :=
    typed_raises htype
  cases hraises.symm.trans hfirst

theorem untyped_get (htype : txType.getD "" = "") :
    TransactionListView.get P user rows txType q =
      paginate P q (sortOn HistoryRow.createdAt true (rows.filter fun t => t.transaction.wallet = user)) := by
  unfold TransactionListView.get
  rw [if_neg (not_not.2 htype)]
  rfl

theorem untyped_wanted (htype : txType.getD "" = "") :
    (ledger.rows.filter fun t => wanted user txType t) = own user ledger := by
  refine List.filter_congr fun t _ => ?_
  rw [decide_eq_decide]
  refine ⟨fun h => h.1, fun h => ⟨h, fun ty _ hty => ?_⟩⟩
  rw [hty] at htype
  cases ty <;> exact absurd htype (by decide)

theorem reading_own (hreads : rows.Perm ledger.rows) :
    Reading HistoryRow.createdAt true (own user ledger)
      (sortOn HistoryRow.createdAt true (rows.filter fun t => t.transaction.wallet = user)) :=
  ⟨(perm_sortOn _).trans (hreads.filter _), sorted_sortOn _⟩

theorem exists_history_rows {l : List HistoryRow} (hl : Reading HistoryRow.createdAt true (own user ledger) l) :
    ∃ rows : List HistoryRow, rows.Perm ledger.rows ∧
      sortOn HistoryRow.createdAt true (rows.filter fun t => t.transaction.wallet = user) = l := by
  obtain ⟨rows, hperm, hrows⟩ := exists_filter_eq hl.1
  exact ⟨rows, hperm, by rw [hrows, sortOn_of_sorted hl.2]⟩

theorem untyped_exact_iff (htype : txType.getD "" = "") (hreads : ∀ n, (reads n).Perm ledger.rows) :
    HistoryExact P ledger user txType pageSize reads ↔
      ((List.range (numPages (getPageSize P pageSize) (own user ledger).length)).flatMap fun n =>
        slice (getPageSize P pageSize) n (sortOn HistoryRow.createdAt true
          ((reads (n + 1)).filter fun t => t.transaction.wallet = user))).Perm (own user ledger) := by
  have hcount : ∀ n, (sortOn HistoryRow.createdAt true ((reads n).filter fun t => t.transaction.wallet = user)).length =
      (own user ledger).length := fun n => (reading_own (hreads n)).1.length_eq
  have hanswered := answered_iff P pageSize hcount
  unfold HistoryExact
  simp only [untyped_get htype, untyped_wanted htype, hanswered]
  constructor
  · rintro ⟨found, rfl, hperm, -⟩
    exact hperm
  · exact fun hperm => ⟨_, rfl, hperm, pages_ordered (fun n => reading_own (hreads (n + 1))) _⟩

/-- **The history is total and exact**, whatever the engine does with rows of one moment: exactly if no `type` is asked
for, and all rows of one moment are on one page. -/
theorem history_exact_iff (P : PageSettings) (ledger : Table HistoryRow) (user : Pk) (txType : Option String)
    (pageSize : Option ℤ) :
    (∀ reads : ℕ → List HistoryRow, (∀ n, (reads n).Perm ledger.rows) →
      HistoryExact P ledger user txType pageSize reads) ↔
      (txType = none ∨ txType = some "") ∧
        UnsplitTies HistoryRow.createdAt true (getPageSize P pageSize) (own user ledger) := by
  have hempty : txType.getD "" = "" ↔ txType = none ∨ txType = some "" := by
    cases txType <;> simp
  have hnodup : (own user ledger).Nodup := (List.Nodup.of_map pk ledger.nodup).filter _
  have hquery := query_pages_iff (getPageSize_pos P pageSize) hnodup (fun _ hperm => reading_own hperm)
    fun _ hl => exists_history_rows hl
  rw [← hempty, ← hquery]
  constructor
  · intro hall
    have htype : txType.getD "" = "" := by
      by_contra htype
      exact typed_not_exact htype (hall (fun _ => ledger.rows) fun _ => .refl _)
    exact ⟨htype, fun reads hreads => (untyped_exact_iff htype hreads).1 (hall reads hreads)⟩
  · rintro ⟨htype, hall⟩ reads hreads
    exact (untyped_exact_iff htype hreads).2 (hall reads hreads)

end

/-! ## A deposit -/

/-- the row of a deposit of 100.00 UZS -/
def demoDeposit : HistoryRow := ⟨1, 0, depositRow 7 10000 0 10000 "payme" "" none⟩

/-- asked for deposits, the view raises -/
theorem history_of_deposits_raises :
    ¬ HistoryExact twentyAPage ⟨[demoDeposit], by decide⟩ 7 (some "deposit") none fun _ => [demoDeposit] :=
  typed_not_exact (by decide)

end GigMarketplace
