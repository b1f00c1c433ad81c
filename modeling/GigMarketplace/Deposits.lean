/-
The life of a payment request: PENDING until confirm_deposit credits it, COMPLETED ever after.

Results:
- `Step.request_kept`: no request disappears, its wallet, provider and amount stay, and it never returns to PENDING;
- `Credits`, `credits_run`: in every reachable state a COMPLETED request has exactly one DEPOSIT row, of its amount and
  on its wallet, and any other request has none.
-/
import GigMarketplace.System

namespace GigMarketplace

open GigMarketplace.Core

/-- the rows credited for the request `i` -/
def creditRows (db : DB) (i : Pk) : List Transaction :=
  db.ledger.filter fun t => t.transactionType = .deposit ∧ t.request = some i

/-- exactly one row was credited for `r`: its amount, to its wallet -/
def CreditedOnce (db : DB) (r : PaymentRequest) : Prop :=
  ∃ t, creditRows db r.id = [t] ∧ t.direction = .credit ∧ t.wallet = r.wallet ∧ t.amount = r.amount

section Steps

variable {E : Env} {db db' : DB} {op : Op}

/-- **No request disappears**, and none returns to PENDING. -/
theorem Step.request_kept (hs : Step E db op db') {i : Pk} {r : PaymentRequest} (hr : db.requests.find i = some r) :
    ∃ r', db'.requests.find i = some r' ∧
      (r' = r ∨ (r.status = .pending ∧ r' = { r with status := .completed })) := by
  cases hs with
  | @initiateDeposit id user amount providerName uuidHex p hlimits hw hcols hfresh hp =>
    refine ⟨r, ?_, Or.inl rfl⟩
    simp only [Table.find_insert]
    split_ifs
    · rw [hr, Option.getD_some]
    · exact hr
  | @confirmDeposit v externalId q w hid hq hstatus hw hlimits hcols =>
    by_cases hi : q.id = i
    · subst hi
      have he : q = r := Option.some.inj (hq.symm.trans hr)
      subst he
      exact ⟨_, Table.find_update_self hq rfl, Or.inr ⟨hstatus, rfl⟩⟩
    · exact ⟨r, (Table.find_update_ne hi).trans hr, Or.inl rfl⟩
  | _ => exact ⟨r, hr, Or.inl rfl⟩

theorem creditRows_append {l : List Transaction} (h : db'.ledger = db.ledger ++ l) (i : Pk) :
    creditRows db' i = creditRows db i ++ l.filter fun t => t.transactionType = .deposit ∧ t.request = some i := by
  simp [creditRows, h]

structure Credits (db : DB) : Prop where
  /-- no row names a request that does not exist -/
  known : ∀ t ∈ db.ledger, ∀ i, t.request = some i → (db.requests.find i).isSome
  status : ∀ r ∈ db.requests.rows, r.status = .pending ∨ r.status = .completed
  completed : ∀ r ∈ db.requests.rows, r.status = .completed → CreditedOnce db r
  pending : ∀ r ∈ db.requests.rows, r.status = .pending → creditRows db r.id = []

/-- rows about jobs credit no request -/
theorem Credits.other (h : Credits db) {l : List Transaction} (hreq : db'.requests = db.requests)
    (hledger : db'.ledger = db.ledger ++ l) (hl : ∀ t ∈ l, t.request = none) : Credits db' := by
  have hrows : ∀ i, creditRows db' i = creditRows db i := fun i => by
    rw [creditRows_append hledger, List.filter_eq_nil_iff.2 fun t ht => by simp [hl t ht], List.append_nil]
  refine ⟨fun t ht i hi => ?_, fun r hr => ?_, fun r hr hc => ?_, fun r hr hp => ?_⟩
  · rw [hreq]
    rw [hledger] at ht
    rcases List.mem_append.1 ht with ht | ht
    · exact h.known t ht i hi
    · rw [hl t ht] at hi; cases hi
  · exact h.status r (hreq ▸ hr)
  · obtain ⟨t, ht, hrest⟩ := h.completed r (hreq ▸ hr) hc
    exact ⟨t, by rw [hrows]; exact ht, hrest⟩
  · rw [hrows]; exact h.pending r (hreq ▸ hr) hp

/-- a new request -/
theorem Credits.requested (h : Credits db) {q : PaymentRequest} (hfresh : db.requests.find q.id = none)
    (hpending : q.status = .pending) (hreq : db'.requests = db.requests.insert q) (hledger : db'.ledger = db.ledger) :
    Credits db' := by
  have hmem : ∀ r, r ∈ db'.requests.rows ↔ r ∈ db.requests.rows ∨ r = q := by
    rw [hreq]
    exact fun r => Table.mem_insert hfresh
  have hrows : ∀ i, creditRows db' i = creditRows db i := fun i => by rw [creditRows, hledger, creditRows]
  refine ⟨fun t ht i hi => ?_, fun r hr => ?_, fun r hr hc => ?_, fun r hr hpend => ?_⟩
  · rw [hreq, Table.find_insert]
    split_ifs
    · rfl
    · exact h.known t (hledger ▸ ht) i hi
  · rcases (hmem r).1 hr with hr | rfl
    · exact h.status r hr
    · exact Or.inl hpending
  · rcases (hmem r).1 hr with hr | rfl
    · rw [CreditedOnce, hrows]
      exact h.completed r hr hc
    · rw [hpending] at hc
      cases hc
  · rw [hrows]
    rcases (hmem r).1 hr with hr | rfl
    · exact h.pending r hr hpend
    · -- a fresh id: no row names it
      refine List.filter_eq_nil_iff.2 fun t ht he => ?_
      have hsome := h.known t ht r.id (of_decide_eq_true he).2
      rw [hfresh] at hsome
      cases hsome

/-- a request that was pending is completed, with the row `t` -/
theorem Credits.confirmed (h : Credits db) {q : PaymentRequest} {t : Transaction} (hq : db.requests.find q.id = some q)
    (hpending : q.status = .pending)
    (hreq : db'.requests = db.requests.update q.id fun r => { r with status := .completed })
    (hledger : db'.ledger = db.ledger ++ [t]) (htype : t.transactionType = .deposit) (ht : t.request = some q.id)
    (hrow : t.direction = .credit ∧ t.wallet = q.wallet ∧ t.amount = q.amount) : Credits db' := by
  have hmem : ∀ r, r ∈ db'.requests.rows ↔ r = { q with status := .completed } ∨ r ∈ db.requests.rows ∧ r.id ≠ q.id := by
    rw [hreq]
    exact Table.mem_update (f := fun r => { r with status := .completed }) hq rfl
  have hrows : ∀ i, creditRows db' i = creditRows db i ++ if q.id = i then [t] else [] := by
    intro i
    rw [creditRows_append hledger]
    split_ifs with hi <;> simp [htype, ht, hi]
  refine ⟨fun t' ht' i hi => ?_, fun r hr => ?_, fun r hr hc => ?_, fun r hr hpend => ?_⟩
  · rw [hreq, Table.isSome_find_update]
    rw [hledger] at ht'
    rcases List.mem_append.1 ht' with hold | hnew
    · exact h.known t' hold i hi
    · rw [List.mem_singleton.1 hnew, ht] at hi
      cases hi
      rw [hq]
      rfl
  · rcases (hmem r).1 hr with rfl | ⟨hr, -⟩
    · exact Or.inr rfl
    · exact h.status r hr
  · rw [CreditedOnce, hrows]
    rcases (hmem r).1 hr with rfl | ⟨hr, hne⟩
    · rw [if_pos rfl, h.pending q (Table.mem_of_find hq) hpending]
      exact ⟨t, rfl, hrow⟩
    · rw [if_neg (Ne.symm hne), List.append_nil]
      exact h.completed r hr hc
  · rcases (hmem r).1 hr with rfl | ⟨hr, hne⟩
    · cases hpend
    · rw [hrows, if_neg (Ne.symm hne), List.append_nil]
      exact h.pending r hr hpend

theorem credits_step (h : Credits db) (hs : Step E db op db') : Credits db' := by
  cases hs with
  | createJob => exact h.other rfl rfl (by simp [paymentRow, internalRow])
  | acceptJob => exact h.other rfl (List.append_nil _).symm (by simp)
  | startJob => exact h.other rfl (List.append_nil _).symm (by simp)
  | completeJob => exact h.other rfl rfl (by simp [commissionRow, releaseRow, internalRow])
  | cancelJob => exact h.other rfl rfl (by simp [refundRow, internalRow])
  | initiateDeposit _ _ _ hfresh _ => exact h.requested hfresh rfl rfl rfl
  | confirmDeposit _ hq hstatus hw _ _ =>
    exact h.confirmed hq hstatus rfl rfl rfl rfl ⟨rfl, Table.pk_of_find hw, rfl⟩

theorem credits_init (users : Table User) : Credits (init users) := by
  refine ⟨fun t ht => ?_, fun r hr => ?_, fun r hr => ?_, fun r hr => ?_⟩
  · simp [init] at ht
  all_goals simp [init, Table.empty] at hr

theorem credits_run (E : Env) (users : Table User) (ops : List Op) : Credits (run E (init users) ops) :=
  run_inv (fun _ _ _ h hs => credits_step h hs) (credits_init users) ops

end Steps

end GigMarketplace
