/-
The escrow invariant: the wallets are the figures of the escrow book.

`book` reads the abstract book of `Core/Escrow.lean` off the tables: a deal for each job, a deposit for each COMPLETED
payment request. The book never looks at a wallet.

Results:
- `Step.refines`: every operation is a lawful change of the book, or leaves it as it is;
- `Inv`, `inv_run`: in every reachable state the book is sound and the columns of every wallet are its owner's figures;
- `escrow_invariant`: spelled out for held_balance, total_spent and total_earned, with what follows for refund_job and
  release_job_payment: `min` and `max` never clip, the subtraction never goes below zero.
-/
import GigMarketplace.Core.Escrow
import GigMarketplace.Lifecycle

namespace GigMarketplace

open GigMarketplace.Core

/-! ## The book -/

def JobStatus.phase : JobStatus → Escrow.Phase
  | .created => .funded
  | .accepted => .funded
  | .inProgress => .funded
  | .completed => .paid
  | .cancelled => .returned

def Job.deal (E : Env) (j : Job) : Escrow.Deal Pk ℤ :=
  ⟨j.employer, j.worker, j.price, (calculateCommission E j.price none).1, j.status.phase⟩

/-- the deposit that a payment request stands for -/
def PaymentRequest.credit (r : PaymentRequest) : Option (Pk × ℤ) :=
  if r.status = .completed then some (r.wallet, r.amount) else none

def bookOf (E : Env) (jobs : Table Job) (requests : Table PaymentRequest) : Escrow.Book Pk ℤ :=
  ⟨(jobs.rows : Multiset Job).map (Job.deal E),
    (requests.rows : Multiset PaymentRequest).filterMap PaymentRequest.credit⟩

def book (E : Env) (db : DB) : Escrow.Book Pk ℤ := bookOf E db.jobs db.requests

def Wallet.figure (w : Wallet) : Escrow.Figure → ℤ
  | .available => w.balance
  | .held => w.heldBalance
  | .earned => w.totalEarned
  | .spent => w.totalSpent

@[simp] theorem phase_funded (j : Job) : j.status.phase = .funded ↔ j.isOpen := by
  unfold Job.isOpen
  cases j.status <;> simp [JobStatus.phase]

@[simp] theorem phase_paid (s : JobStatus) : s.phase = .paid ↔ s = .completed := by
  cases s <;> simp [JobStatus.phase]

@[simp] theorem phase_returned (s : JobStatus) : s.phase = .returned ↔ s = .cancelled := by
  cases s <;> simp [JobStatus.phase]

section Deals

variable (E : Env) {j : Job}

theorem deal_accepted (h : j.status = .created) (worker : Pk) (now : Time) :
    ({ j with worker := some worker, status := .accepted, acceptedAt := some now } : Job).deal E =
      { j.deal E with payee := some worker } := by
  simp only [Job.deal, h]; rfl

theorem deal_started (h : j.status = .accepted) (now : Time) :
    ({ j with status := .inProgress, startedAt := some now } : Job).deal E = j.deal E := by
  simp only [Job.deal, h]; rfl

/-- a completed job frees the employer's held price and pays the worker -/
theorem figure_completed (h : j.isOpen) {worker : Pk} (hworker : j.worker = some worker) (now : Time) (u : Pk)
    (f : Escrow.Figure) :
    (({ j with status := .completed, completedAt := some now } : Job).deal E).figure u f =
      (j.deal E).figure u f - (if j.employer = u then Escrow.freed j.price f else 0) +
        if worker = u then Escrow.payout (calculateCommission E j.price none).2 f else 0 := by
  have hadd := calculateCommission_add E j.price none
  have hnet : (calculateCommission E j.price none).2 = j.price - (calculateCommission E j.price none).1 := by omega
  rw [hnet]
  exact Escrow.figure_paid (j.deal E) ((phase_funded j).2 h) hworker u f

theorem figure_open (h : j.isOpen) (u : Pk) (f : Escrow.Figure) :
    (j.deal E).figure u f = if j.employer = u then Escrow.stake j.price f else 0 :=
  Escrow.figure_funded (j.deal E) ((phase_funded j).2 h) u f

theorem figure_cancelled (j : Job) (reason : String) (now : Time) (u : Pk) (f : Escrow.Figure) :
    (({ j with status := .cancelled, cancelledAt := some now, cancelReason := reason } : Job).deal E).figure u f = 0 :=
  Escrow.figure_returned _ rfl u f

end Deals

theorem credit_pending {r : PaymentRequest} (h : r.status = .pending) : r.credit = none := by
  simp [PaymentRequest.credit, h]

theorem credit_completed (r : PaymentRequest) :
    ({ r with status := .completed } : PaymentRequest).credit = some (r.wallet, r.amount) := rfl

theorem mem_deals {E : Env} {db : DB} {d : Escrow.Deal Pk ℤ} :
    d ∈ (book E db).deals ↔ ∃ j ∈ db.jobs.rows, j.deal E = d := by
  simp only [book, bookOf, Multiset.mem_map, Multiset.mem_coe]

theorem mem_deposits {E : Env} {db : DB} {p : Pk × ℤ} :
    p ∈ (book E db).deposits ↔ ∃ r ∈ db.requests.rows, r.status = .completed ∧ (r.wallet, r.amount) = p := by
  simp only [book, bookOf, Multiset.mem_filterMap, Multiset.mem_coe, PaymentRequest.credit]
  refine exists_congr fun r => and_congr_right fun _ => ?_
  split_ifs with h <;> simp [h]

section Book

variable (E : Env) {jobs : Table Job} {requests : Table PaymentRequest}

theorem bookOf_insertJob (requests : Table PaymentRequest) {j : Job} (h : jobs.find j.id = none) :
    bookOf E (jobs.insert j) requests =
      ⟨j.deal E ::ₘ (bookOf E jobs requests).deals, (bookOf E jobs requests).deposits⟩ := by
  unfold bookOf
  rw [Table.rows_insert h, ← Multiset.coe_add, add_comm]
  rfl

/-- one job's row changes: its deal is exchanged, the rest of the book stays -/
theorem bookOf_updateJob (requests : Table PaymentRequest) {j : Job} {f : Job → Job} (h : jobs.find j.id = some j)
    (hf : (f j).id = j.id) :
    ∃ s t, bookOf E jobs requests = ⟨j.deal E ::ₘ s, t⟩ ∧
      bookOf E (jobs.update j.id f) requests = ⟨(f j).deal E ::ₘ s, t⟩ := by
  obtain ⟨l₁, l₂, h1, h2⟩ := Table.rows_update h hf
  have hperm : ∀ x : Job, ((l₁ ++ x :: l₂ : List Job) : Multiset Job) = x ::ₘ ((l₁ ++ l₂ : List Job) : Multiset Job) :=
    fun x => Multiset.coe_eq_coe.2 List.perm_middle
  refine ⟨((l₁ ++ l₂ : List Job) : Multiset Job).map (Job.deal E), (bookOf E jobs requests).deposits, ?_, ?_⟩
  · unfold bookOf; rw [h1, hperm, Multiset.map_cons]
  · unfold bookOf; rw [h2, hperm, Multiset.map_cons]

theorem bookOf_insertRequest (jobs : Table Job) {r : PaymentRequest} (h : requests.find r.id = none)
    (hp : r.status = .pending) :
    bookOf E jobs (requests.insert r) = bookOf E jobs requests := by
  have hnone : Multiset.filterMap PaymentRequest.credit ([r] : List PaymentRequest) = 0 := by
    rw [Multiset.coe_singleton, ← Multiset.cons_zero, Multiset.filterMap_cons_none _ _ (credit_pending hp)]
    rfl
  unfold bookOf
  rw [Table.rows_insert h, ← Multiset.coe_add, Multiset.filterMap_add, hnone, add_zero]

theorem bookOf_complete (jobs : Table Job) {r : PaymentRequest} (h : requests.find r.id = some r)
    (hp : r.status = .pending) :
    bookOf E jobs (requests.update r.id fun x => { x with status := .completed }) =
      ⟨(bookOf E jobs requests).deals, (r.wallet, r.amount) ::ₘ (bookOf E jobs requests).deposits⟩ := by
  obtain ⟨l₁, l₂, h1, h2⟩ := Table.rows_update (f := fun x => { x with status := .completed }) h rfl
  have hperm : ∀ x : PaymentRequest, ((l₁ ++ x :: l₂ : List PaymentRequest) : Multiset PaymentRequest) =
      x ::ₘ ((l₁ ++ l₂ : List PaymentRequest) : Multiset PaymentRequest) :=
    fun x => Multiset.coe_eq_coe.2 List.perm_middle
  unfold bookOf
  rw [h1, h2, hperm, hperm, Multiset.filterMap_cons_none _ _ (credit_pending hp),
    Multiset.filterMap_cons_some _ _ _ (credit_completed r)]

end Book

/-! ## The operations keep the book -/

structure Inv (E : Env) (db : DB) : Prop where
  linked : Linked db
  /-- every wallet shows its owner's figures -/
  figures : ∀ u w, db.wallets.find u = some w → ∀ f, w.figure f = (book E db).figure u f
  sound : Escrow.Sound (book E db)

section Refinement

variable {E : Env} {db db' : DB} {op : Op}

/-- the deal of a job as the escrow covers it -/
theorem Inv.covered (h : Inv E db) {j : Job} (hj : db.jobs.find j.id = some j) (hopen : j.isOpen) {w : Wallet}
    (hw : db.wallets.find j.employer = some w) : j.price ≤ w.heldBalance ∧ j.price ≤ w.totalSpent := by
  have hmem : j.deal E ∈ (book E db).deals := mem_deals.2 ⟨j, Table.mem_of_find hj, rfl⟩
  have hphase : (j.deal E).phase = .funded := (phase_funded j).2 hopen
  have hheld : w.heldBalance = _ := h.figures j.employer w hw .held
  have hspent : w.totalSpent = _ := h.figures j.employer w hw .spent
  rw [hheld, hspent]
  exact ⟨h.sound.price_le_held hmem hphase, h.sound.price_le_spent hmem hphase⟩

/-- **Refinement.** Every operation is a lawful change of the book, or leaves it as it is. -/
theorem Step.refines (h : Inv E db) (hs : Step E db op db') :
    book E db' = book E db ∨ Escrow.Step (book E db) (book E db') := by
  cases hs with
  | @createJob id employer data now w hrole hprice huser hfresh hw hcover hcols =>
    right
    have hins := bookOf_insertJob E db.requests (j := newJob id employer data now) hfresh
    simp only [book, hins]
    have hbal : w.balance = _ := h.figures employer.id w hw .available
    exact .fund employer.id _ hcols.1.1 (hbal ▸ hcover)
  | @acceptJob jobId worker now j hj hrole hstatus hown huser =>
    right
    obtain ⟨s, t, hb, hb'⟩ := bookOf_updateJob E db.requests
      (f := fun r => { r with worker := some worker.id, status := .accepted, acceptedAt := some now }) hj.row rfl
    unfold book
    rw [hb, hb']
    have hphase : (j.deal E).phase = .funded := (phase_funded j).2 (Or.inl hstatus)
    rw [deal_accepted E hstatus]
    exact .assign worker.id hphase
  | @startJob jobId worker now j hj hworker hstatus =>
    left
    obtain ⟨s, t, hb, hb'⟩ := bookOf_updateJob E db.requests
      (f := fun r => { r with status := .inProgress, startedAt := some now }) hj.row rfl
    unfold book
    rw [hb, hb', deal_started E hstatus]
  | @completeJob jobId employer now j we ww worker hj hrole hemployer hstatus hworker hwe hww hcols =>
    right
    obtain ⟨s, t, hb, hb'⟩ := bookOf_updateJob E db.requests
      (f := fun r => { r with status := .completed, completedAt := some now }) hj.row rfl
    unfold book
    rw [hb, hb']
    have hadd := calculateCommission_add E j.price none
    have hpayout := hcols.payout.1
    refine .pay (d := j.deal E) ((phase_funded j).2 (Or.inr (Or.inr hstatus))) (by simp [Job.deal, hworker])
      ⟨hcols.commission.1, ?_⟩
    simp only [Job.deal]
    omega
  | @cancelJob jobId user reason now j w hj hcaller hopen hw hcols =>
    right
    obtain ⟨s, t, hb, hb'⟩ := bookOf_updateJob E db.requests
      (f := fun r => { r with status := .cancelled, cancelledAt := some now, cancelReason := reason }) hj.row rfl
    unfold book
    rw [hb, hb']
    exact .giveBack (d := j.deal E) ((phase_funded j).2 hopen)
  | @initiateDeposit id user amount providerName uuidHex p hlimits hw hcols hfresh hp =>
    left
    exact bookOf_insertRequest E db.jobs (r := newRequest E id user.id amount providerName uuidHex p) hfresh rfl
  | @confirmDeposit v externalId r w hid hr hstatus hw hlimits hcols =>
    right
    unfold book
    rw [bookOf_complete E db.jobs hr hstatus]
    exact .deposit r.wallet hcols.1.1

/-- every wallet shows its owner's figures -/
def Shows (wallets : Table Wallet) (F : Pk → Escrow.Figure → ℤ) : Prop :=
  ∀ u w, wallets.find u = some w → ∀ f, w.figure f = F u f

/-- one wallet written, and its owner's figures changed by as much -/
theorem Shows.update {wallets : Table Wallet} {F F' : Pk → Escrow.Figure → ℤ} (h : Shows wallets F) {k : Pk}
    {w : Wallet} {g : Wallet → Wallet} (hw : wallets.find k = some w) (hg : (g w).user = w.user)
    (hself : ∀ f, (g w).figure f - w.figure f = F' k f - F k f) (hother : ∀ u f, k ≠ u → F' u f = F u f) :
    Shows (wallets.update k g) F' := by
  intro u w' hw' f
  by_cases hu : k = u
  · subst hu
    rw [Table.find_update_self hw hg] at hw'
    cases hw'
    have hold := h k w hw f
    have hchange := hself f
    omega
  · rw [Table.find_update_ne hu] at hw'
    rw [hother u f hu]
    exact h u w' hw' f

theorem figures_step (h : Inv E db) (hs : Step E db op db') : Shows db'.wallets (book E db').figure := by
  have hshows : Shows db.wallets (book E db).figure := h.figures
  cases hs with
  | @createJob id employer data now w hrole hprice huser hfresh hw hcover hcols =>
    have hins := bookOf_insertJob E db.requests (j := newJob id employer data now) hfresh
    have hfig : ∀ u f, ((newJob id employer data now).deal E).figure u f =
        if employer.id = u then Escrow.stake data.price f else 0 := figure_open E (Or.inl rfl)
    refine hshows.update hw rfl (fun f => ?_) fun u f hu => ?_
    · rw [book, hins, Escrow.figure_cons, hfig, if_pos rfl]
      cases f <;> simp [Wallet.figure, Escrow.stake, book]
    · rw [book, hins, Escrow.figure_cons, hfig, if_neg hu, zero_add]
      rfl
  | @acceptJob jobId worker now j hj hrole hstatus hown huser =>
    obtain ⟨s, t, hb, hb'⟩ := bookOf_updateJob E db.requests
      (f := fun r => { r with worker := some worker.id, status := .accepted, acceptedAt := some now }) hj.row rfl
    have hphase : (j.deal E).phase = .funded := (phase_funded j).2 (Or.inl hstatus)
    intro u w hw f
    rw [book, Escrow.figure_swap hb hb', deal_accepted E hstatus,
      Escrow.figure_assign (j.deal E) (some worker.id) hphase, sub_add_cancel]
    exact hshows u w hw f
  | @startJob jobId worker now j hj hworker hstatus =>
    obtain ⟨s, t, hb, hb'⟩ := bookOf_updateJob E db.requests
      (f := fun r => { r with status := .inProgress, startedAt := some now }) hj.row rfl
    intro u w hw f
    rw [book, Escrow.figure_swap hb hb', deal_started E hstatus, sub_add_cancel]
    exact hshows u w hw f
  | @completeJob jobId employer now j we ww worker hj hrole hemployer hstatus hworker hwe hww hcols =>
    obtain ⟨s, t, hb, hb'⟩ := bookOf_updateJob E db.requests
      (f := fun r => { r with status := .completed, completedAt := some now }) hj.row rfl
    have hne : j.employer ≠ worker :=
      ((h.linked.jobs j (Table.mem_of_find hj.row)).worker worker hworker).2.symm
    have hfig : ∀ u f, (bookOf E (db.jobs.update j.id fun r =>
          { r with status := .completed, completedAt := some now }) db.requests).figure u f =
        (book E db).figure u f - (if j.employer = u then Escrow.freed j.price f else 0) +
          if worker = u then Escrow.payout (calculateCommission E j.price none).2 f else 0 := by
      intro u f
      rw [Escrow.figure_swap hb hb', figure_completed E (Or.inr (Or.inr hstatus)) hworker, book]
      ring
    -- the employer's wallet first, then the worker's
    have hemployer' : Shows (db.wallets.update j.employer fun r => { r with heldBalance := we.heldBalance - j.price })
        fun u f => (book E db).figure u f - if j.employer = u then Escrow.freed j.price f else 0 := by
      refine hshows.update hwe rfl (fun f => ?_) fun u f hu => ?_
      · rw [if_pos rfl]
        cases f <;> simp [Wallet.figure, Escrow.freed]
      · rw [if_neg hu, sub_zero]
    refine hemployer'.update ((Table.find_update_ne hne).trans hww) rfl (fun f => ?_) fun u f hu => ?_
    · simp only [book, hfig, if_true]
      cases f <;> simp [Wallet.figure, Escrow.payout]
    · simp only [book, hfig, if_neg hu, add_zero]
  | @cancelJob jobId user reason now j w hj hcaller hopen hw hcols =>
    obtain ⟨s, t, hb, hb'⟩ := bookOf_updateJob E db.requests
      (f := fun r => { r with status := .cancelled, cancelledAt := some now, cancelReason := reason }) hj.row rfl
    obtain ⟨hheld, hspent⟩ := h.covered hj.row hopen hw
    have hmax : max 0 (w.totalSpent - j.price) = w.totalSpent - j.price := max_eq_right (by omega)
    have hfig := figure_open E hopen
    refine hshows.update hw rfl (fun f => ?_) fun u f hu => ?_
    · rw [book, Escrow.figure_swap hb hb', figure_cancelled E j, hfig, if_pos rfl]
      simp only [min_eq_left hheld, hmax]
      cases f <;> simp [Wallet.figure, Escrow.stake, book]
    · rw [book, Escrow.figure_swap hb hb', figure_cancelled E j, hfig, if_neg hu, sub_zero, add_zero]
      rfl
  | @initiateDeposit id user amount providerName uuidHex p hlimits hw hcols hfresh hp =>
    have hins := bookOf_insertRequest E db.jobs (r := newRequest E id user.id amount providerName uuidHex p) hfresh rfl
    simp only [book, hins]
    exact hshows
  | @confirmDeposit v externalId r w hid hr hstatus hw hlimits hcols =>
    have hcomplete := bookOf_complete E db.jobs hr hstatus
    refine hshows.update hw rfl (fun f => ?_) fun u f hu => ?_
    · rw [book, hcomplete, Escrow.figure_deposit]
      cases f <;> simp [Wallet.figure, Escrow.paidIn, book]
    · rw [book, hcomplete, Escrow.figure_deposit]
      cases f <;> simp [Escrow.paidIn, hu, book]

end Refinement

theorem inv_init (E : Env) (users : Table User) : Inv E (init users) where
  linked := linked_init users
  figures := fun u w hw f => by
    rw [find_init_wallets] at hw
    obtain ⟨x, -, rfl⟩ := Option.map_eq_some_iff.1 hw
    cases f <;> simp [Wallet.figure, book, bookOf, Escrow.Book.figure, init, Table.empty]
  sound := Escrow.sound_empty

theorem inv_step {E : Env} {db db' : DB} {op : Op} (h : Inv E db) (hs : Step E db op db') : Inv E db' where
  linked := linked_step h.linked hs
  figures := figures_step h hs
  sound := by
    rcases hs.refines h with he | hb
    · rw [he]; exact h.sound
    · exact h.sound.step hb

/-- **Every reachable state**: the tables are linked, the book is sound, and the wallets show it. -/
theorem inv_run (E : Env) (users : Table User) (ops : List Op) : Inv E (run E (init users) ops) :=
  run_inv (fun _ _ _ h hs => inv_step h hs) (inv_init E users) ops

/-! ## Column ranges -/

/-- the CHECK constraints of the wallet columns -/
def Ranged (wallets : Table Wallet) : Prop := ∀ u w, wallets.find u = some w → ∀ c, InBigint (w.col c)

section Ranged

variable {E : Env} {db db' : DB} {op : Op}

theorem Ranged.update {wallets : Table Wallet} (h : Ranged wallets) (k : Pk) {f : Wallet → Wallet}
    (hf : ∀ w, (∀ c, InBigint (w.col c)) → ∀ c, InBigint ((f w).col c)) : Ranged (wallets.update k f) := by
  intro u w hw c
  rw [Table.find_update] at hw
  split_ifs at hw with hk
  · obtain ⟨w₀, hw₀, rfl⟩ := Option.map_eq_some_iff.1 hw
    have hcol : (withPk (f w₀) k).col c = (f w₀).col c := by cases c <;> rfl
    rw [hcol]
    exact hf w₀ (h u w₀ hw₀) c
  · exact h u w hw c

/-- every save is checked, so the constraints hold after each operation, whatever the state -/
theorem ranged_step (h : Ranged db.wallets) (hs : Step E db op db') : Ranged db'.wallets := by
  cases hs with
  | createJob hrole hprice huser hfresh hw hcover hcols =>
    refine h.update _ fun r hr c => ?_
    cases c with
    | balance => exact hcols.2.2.1
    | heldBalance => exact hcols.2.2.2.1
    | totalEarned => exact hr .totalEarned
    | totalSpent => exact hcols.2.2.2.2
  | @completeJob jobId employer now j we ww worker hj hrole hemployer hstatus hworker hwe hww hcols =>
    have hfirst := h.update j.employer (f := fun r => { r with heldBalance := we.heldBalance - j.price }) fun r hr c => by
      cases c with
      | heldBalance => exact hcols.held
      | balance => exact hr .balance
      | totalEarned => exact hr .totalEarned
      | totalSpent => exact hr .totalSpent
    refine hfirst.update _ fun r hr c => ?_
    cases c with
    | balance => exact hcols.after
    | heldBalance => exact hr .heldBalance
    | totalEarned => exact hcols.earned
    | totalSpent => exact hr .totalSpent
  | cancelJob hj hcaller hopen hw hcols =>
    refine h.update _ fun r hr c => ?_
    cases c with
    | balance => exact hcols.after
    | heldBalance => exact hcols.held
    | totalEarned => exact hr .totalEarned
    | totalSpent => exact hcols.spent
  | confirmDeposit hid hr hstatus hw hlimits hcols =>
    refine h.update _ fun r hr c => ?_
    cases c with
    | balance => exact hcols.2.2
    | heldBalance => exact hr .heldBalance
    | totalEarned => exact hr .totalEarned
    | totalSpent => exact hr .totalSpent
  | _ => exact h

theorem ranged_init (users : Table User) : Ranged (init users).wallets := by
  intro u w hw c
  rw [find_init_wallets] at hw
  obtain ⟨x, -, rfl⟩ := Option.map_eq_some_iff.1 hw
  have hzero : InBigint 0 := by decide
  cases c <;> exact hzero

end Ranged

/-! ## The wallets, from the jobs -/

/-- price of the open jobs that `u` posted -/
def heldFor (db : DB) (u : Pk) : ℤ := db.jobs.sum fun j => if j.employer = u ∧ j.isOpen then j.price else 0

/-- price of the jobs that `u` posted and that were not cancelled -/
def spentBy (db : DB) (u : Pk) : ℤ :=
  db.jobs.sum fun j => if j.employer = u ∧ j.status ≠ .cancelled then j.price else 0

/-- price less commission of the completed jobs that `u` worked on -/
def earnedBy (E : Env) (db : DB) (u : Pk) : ℤ :=
  db.jobs.sum fun j => if j.worker = some u ∧ j.status = .completed
    then j.price - (calculateCommission E j.price none).1 else 0

/-- amount of the COMPLETED payment requests of `u`'s wallet -/
def depositedBy (db : DB) (u : Pk) : ℤ :=
  db.requests.sum fun r => if r.wallet = u ∧ r.status = .completed then r.amount else 0

section Figures

variable (E : Env) (db : DB) (u : Pk)

/-- a figure other than `available` is a sum over the jobs -/
theorem figure_eq_sum (f : Escrow.Figure) (hf : f ≠ .available) :
    (book E db).figure u f = db.jobs.sum fun j => (j.deal E).figure u f := by
  unfold Escrow.Book.figure
  rw [Escrow.sum_paidIn_other _ _ hf, add_zero]
  simp only [book, bookOf, Multiset.map_coe, Multiset.sum_coe, List.map_map, Table.sum]
  rfl

theorem figure_held : (book E db).figure u .held = heldFor db u := by
  rw [figure_eq_sum E db u .held (by simp)]
  refine Table.sum_congr fun j _ => ?_
  simp only [Escrow.Deal.figure, Escrow.Deal.held, Job.deal, phase_funded]

theorem figure_spent : (book E db).figure u .spent = spentBy db u := by
  rw [figure_eq_sum E db u .spent (by simp)]
  refine Table.sum_congr fun j _ => ?_
  simp only [Escrow.Deal.figure, Escrow.Deal.spent, Job.deal, ne_eq, phase_returned]

theorem figure_earned : (book E db).figure u .earned = earnedBy E db u := by
  rw [figure_eq_sum E db u .earned (by simp)]
  refine Table.sum_congr fun j _ => ?_
  simp only [Escrow.Deal.figure, Escrow.Deal.earned, Job.deal, phase_paid]

/-- a sum over the deposits is one over the COMPLETED requests -/
theorem sum_deposits (g : Pk × ℤ → ℤ) :
    ((book E db).deposits.map g).sum =
      db.requests.sum fun r => if r.status = .completed then g (r.wallet, r.amount) else 0 := by
  unfold book bookOf Table.sum
  induction db.requests.rows with
  | nil => rfl
  | cons r rows ih =>
    rw [List.map_cons, List.sum_cons, ← ih, ← Multiset.cons_coe]
    by_cases hr : r.status = .completed
    · rw [Multiset.filterMap_cons_some _ _ _ (b := (r.wallet, r.amount)) (by simp [PaymentRequest.credit, hr])]
      simp [hr]
    · rw [Multiset.filterMap_cons_none _ _ (by simp [PaymentRequest.credit, hr])]
      simp [hr]

theorem paidIn_eq_sum :
    ((book E db).deposits.map fun p => Escrow.paidIn p u .available).sum = depositedBy db u := by
  rw [sum_deposits]
  refine Table.sum_congr fun r _ => ?_
  by_cases hr : r.status = .completed <;> simp [Escrow.paidIn, hr]

theorem figure_available :
    (book E db).figure u .available = depositedBy db u + earnedBy E db u - spentBy db u := by
  rw [Escrow.figure_available_eq, paidIn_eq_sum, figure_earned, figure_spent]

end Figures

/-- **A wallet is a function of the jobs and the payment requests.** -/
theorem Inv.wallet {E : Env} {db : DB} (h : Inv E db) {u : Pk} {w : Wallet} (hw : db.wallets.find u = some w) :
    w = ⟨u, depositedBy db u + earnedBy E db u - spentBy db u, heldFor db u, earnedBy E db u, spentBy db u⟩ := by
  have hu : w.user = u := Table.pk_of_find hw
  have hbalance : w.balance = _ := h.figures u w hw .available
  have hheld : w.heldBalance = _ := h.figures u w hw .held
  have hearned : w.totalEarned = _ := h.figures u w hw .earned
  have hspent : w.totalSpent = _ := h.figures u w hw .spent
  rw [figure_available] at hbalance
  rw [figure_held] at hheld
  rw [figure_earned] at hearned
  rw [figure_spent] at hspent
  rw [← hu] at hbalance hheld hearned hspent ⊢
  rw [← hbalance, ← hheld, ← hearned, ← hspent]

/-- **The escrow invariant.** In every state that the operations reach, called by anyone with any arguments in any
order, held_balance, total_spent and total_earned of every user are the sums over the jobs; so for each open job of
the user the `min` and `max` of refund_job clip nothing, and the subtraction of release_job_payment stays at least
zero. -/
theorem escrow_invariant (E : Env) (users : Table User) (ops : List Op) (u : User) (hu : u ∈ users.rows) :
    ∃ w, (run E (init users) ops).wallets.find u.id = some w ∧
      w.heldBalance = heldFor (run E (init users) ops) u.id ∧
      w.totalSpent = spentBy (run E (init users) ops) u.id ∧
      w.totalEarned = earnedBy E (run E (init users) ops) u.id ∧
      ∀ j ∈ (run E (init users) ops).jobs.rows, j.employer = u.id → j.isOpen →
        min j.price w.heldBalance = j.price ∧ max 0 (w.totalSpent - j.price) = w.totalSpent - j.price ∧
        0 ≤ w.heldBalance - j.price := by
  have h := inv_run E users ops
  have husers : (run E (init users) ops).users = users :=
    run_inv (P := fun db => db.users = users) (fun _ _ _ h hs => hs.users.trans h) rfl ops
  have hsome : ((run E (init users) ops).wallets.find u.id).isSome := by
    rw [h.linked.wallets, husers]
    exact Option.isSome_iff_exists.2 ⟨u, Table.find_of_mem hu⟩
  obtain ⟨w, hw⟩ := Option.isSome_iff_exists.1 hsome
  have hcols := h.wallet hw
  refine ⟨w, hw, congrArg Wallet.heldBalance hcols, congrArg Wallet.totalSpent hcols,
    congrArg Wallet.totalEarned hcols, fun j hj hemployer hopen => ?_⟩
  have hrow : (run E (init users) ops).jobs.find j.id = some j := Table.find_of_mem hj
  obtain ⟨hheld, hspent⟩ := h.covered hrow hopen (hemployer ▸ hw)
  exact ⟨min_eq_left hheld, max_eq_right (by omega), by omega⟩

theorem escrow_invariant_demo :
    ∃ w, (run demoEnv (init demoUsers) demoPosted).wallets.find 1 = some w ∧ w.heldBalance = 100005 ∧
      w.totalSpent = 100005 := by
  obtain ⟨w, hw, hheld, hspent, -⟩ := escrow_invariant demoEnv demoUsers demoPosted demoEmployer (by decide)
  exact ⟨w, hw, hheld.trans (by decide +kernel), hspent.trans (by decide +kernel)⟩

end GigMarketplace
