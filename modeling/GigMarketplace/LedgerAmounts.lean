/-
The amounts of the ledger rows: when complete_job writes an empty one.

`Transaction.amount` has a MinValueValidator(1), which Django runs in full_clean and not in objects.create, so nothing
checks it on the paths that write rows. A payment and a refund have the price of their job as amount, at least 100: the
escrow invariant says that the refund's `min` takes nothing away. The two rows of a release share the price by the
configured percentage, and at 0 or 100 percent one of them gets nothing.

The commission is a floating quotient. Of the division it is assumed that it is correctly rounded: it does not pass a
whole number, as whole numbers up to 2^53 are floats.

Results:
- `amounts_step`: what one operation writes;
- `no_empty_rows_iff`: over every run from the empty state, exactly when no row is empty;
- `allFill_of_settings`: the settings under which no run writes an empty row.
-/
import GigMarketplace.Escrow
import Mathlib.Tactic.Linarith
import Mathlib.Tactic.NormNum

namespace GigMarketplace

open GigMarketplace.Core

/-! ## The commission -/

/-- `a / b` of two ints is correctly rounded -/
def RoundedDivision (py : Py) : Prop :=
  ∀ a b k : ℤ, 0 < b → |a| ≤ 2 ^ 53 * b → |k| ≤ 2 ^ 53 →
    (k * b ≤ a → (k : ℚ) ≤ py.trueDiv a b) ∧ (a ≤ k * b → py.trueDiv a b ≤ k)

section Commission

theorem truncate_nonneg {x : ℚ} (hx : 0 ≤ x) : truncate x = ⌊x⌋ := if_pos hx

theorem le_truncate {x : ℚ} {k : ℤ} (hk : 0 ≤ k) (h : (k : ℚ) ≤ x) : k ≤ truncate x := by
  rw [truncate_nonneg ((Int.cast_nonneg hk).trans h)]
  exact Int.le_floor.2 h

theorem truncate_le {x : ℚ} {k : ℤ} (hx : 0 ≤ x) (h : x ≤ k) : truncate x ≤ k := by
  rw [truncate_nonneg hx]
  exact_mod_cast (Int.floor_le x).trans h

variable {E : Env} {price : ℤ}

/-- the fee at `p` percent passes no whole number of tiyin up to the price -/
theorem fee_bounds {py : Py} {p k : ℤ} (hdiv : RoundedDivision py) (hpercent : 0 ≤ p ∧ p ≤ 100)
    (hhigh : price ≤ integerMax) (hk : 0 ≤ k ∧ k ≤ price) :
    (k * 100 ≤ price * p → k ≤ truncate (py.trueDiv (price * p) 100)) ∧
      (price * p ≤ k * 100 → truncate (py.trueDiv (price * p) 100) ≤ k) := by
  unfold integerMax at hhigh
  have hnonneg : 0 ≤ price * p := mul_nonneg (hk.1.trans hk.2) hpercent.1
  have hrange : |price * p| ≤ 2 ^ 53 * 100 := by
    rw [abs_of_nonneg hnonneg]
    calc price * p ≤ price * 100 := mul_le_mul_of_nonneg_left hpercent.2 (hk.1.trans hk.2)
      _ ≤ 2 ^ 53 * 100 := by omega
  have hround := fun k hk => hdiv (price * p) 100 k (by decide) hrange hk
  have hfloat : |k| ≤ 2 ^ 53 := by
    rw [abs_of_nonneg hk.1]
    omega
  have hquotient : (0 : ℚ) ≤ py.trueDiv (price * p) 100 := by
    have hzero := (hround 0 (by norm_num)).1 (by omega)
    exact_mod_cast hzero
  constructor
  · exact fun hle => le_truncate hk.1 ((hround k hfloat).1 hle)
  · exact fun hle => truncate_le hquotient ((hround k hfloat).2 hle)

/-- **Both shares of a price are at least 1** exactly at 1 to 99 percent. -/
theorem shares_positive_iff (hdiv : RoundedDivision E.py)
    (hpercent : 0 ≤ E.platformCommissionPercent ∧ E.platformCommissionPercent ≤ 100) (hlow : 100 ≤ price)
    (hhigh : price ≤ integerMax) :
    (1 ≤ (calculateCommission E price none).1 ∧ 1 ≤ (calculateCommission E price none).2) ↔
      1 ≤ E.platformCommissionPercent ∧ E.platformCommissionPercent ≤ 99 := by
  have hcode : calculateCommission E price none =
      (truncate (E.py.trueDiv (price * E.platformCommissionPercent) 100),
        price - truncate (E.py.trueDiv (price * E.platformCommissionPercent) 100)) := rfl
  rw [hcode]
  generalize E.platformCommissionPercent = p at hpercent
  have hbounds := fun k hk => @fee_bounds price E.py p k hdiv hpercent hhigh hk
  constructor
  · rintro ⟨hfee, hpayout⟩
    constructor
    · by_contra hp
      obtain rfl : p = 0 := by omega
      have hnone := (hbounds 0 (by omega)).2 (by omega)
      omega
    · by_contra hp
      obtain rfl : p = 100 := by omega
      have hall := (hbounds price (by omega)).1 le_rfl
      omega
  · rintro ⟨hp1, hp99⟩
    have hleast : 1 * 100 ≤ price * p := by
      calc 1 * 100 ≤ price * 1 := by omega
        _ ≤ price * p := mul_le_mul_of_nonneg_left hp1 (by omega)
    have hmost : price * p ≤ (price - 1) * 100 := by
      calc price * p ≤ price * 99 := mul_le_mul_of_nonneg_left hp99 (by omega)
        _ ≤ (price - 1) * 100 := by omega
    have hfee := (hbounds 1 (by omega)).1 hleast
    have hrest := (hbounds (price - 1) (by omega)).2 hmost
    exact ⟨hfee, by omega⟩

end Commission

/-! ## One operation -/

/-- every row has an amount -/
def NoEmptyRows (db : DB) : Prop := ∀ t ∈ db.ledger, 1 ≤ t.amount

/-- the operation goes through -/
def Proceeds (E : Env) (db : DB) (op : Op) : Prop := ∃ db', Step E db op db'

/-- What an operation needs in order to write no empty row: a complete_job that goes through a share for both the
platform and the worker, a confirm_deposit an amount in the request it names. -/
def Fills (E : Env) (db : DB) (op : Op) : Prop :=
  Proceeds E db op →
    match op with
    | .completeJob .. => 1 ≤ E.platformCommissionPercent ∧ E.platformCommissionPercent ≤ 99
    | .confirmDeposit v _ => ∀ r ∈ db.requests.rows, lookupId E.py v = .ok (some r.id) → 1 ≤ r.amount
    | _ => True

/-- the column of the price -/
def Priced (db : DB) : Prop := ∀ j ∈ db.jobs.rows, j.price ≤ integerMax

section Step

variable {E : Env} {db db' : DB} {op : Op}

theorem Priced.update (h : Priced db) {j : Job} {f : Job → Job} (hj : db.jobs.find j.id = some j)
    (hid : (f j).id = j.id) (hprice : (f j).price = j.price) (hjobs : db'.jobs = db.jobs.update j.id f) :
    Priced db' := by
  intro j' hj'
  rw [hjobs] at hj'
  rcases (Table.mem_update hj hid j').1 hj' with rfl | ⟨hold, -⟩
  · rw [hprice]
    exact h j (Table.mem_of_find hj)
  · exact h j' hold

theorem priced_step (h : Priced db) (hs : Step E db op db') : Priced db' := by
  cases hs with
  | @createJob id employer data now w hrole hprice huser hfresh =>
    intro j hj
    rcases (Table.mem_insert (r := newJob id employer data now) hfresh).1 hj with hold | rfl
    · exact h j hold
    · exact hprice
  | acceptJob hj => exact h.update hj.row rfl rfl rfl
  | startJob hj => exact h.update hj.row rfl rfl rfl
  | completeJob hj => exact h.update hj.row rfl rfl rfl
  | cancelJob hj => exact h.update hj.row rfl rfl rfl
  | initiateDeposit => exact h
  | confirmDeposit => exact h

theorem noEmptyRows_append {l : List Transaction} (h : db'.ledger = db.ledger ++ l) :
    NoEmptyRows db' ↔ NoEmptyRows db ∧ ∀ t ∈ l, 1 ≤ t.amount := by
  unfold NoEmptyRows
  rw [h, List.forall_mem_append]

/-- an operation that always fills its row -/
theorem noEmptyRows_filled {t : Transaction} (h : db'.ledger = db.ledger ++ [t]) (hamount : 1 ≤ t.amount) :
    NoEmptyRows db' ↔ NoEmptyRows db ∧ True := by
  rw [noEmptyRows_append h, List.forall_mem_singleton]
  simp [hamount]

/-- the request of an id -/
theorem named_request {v : Json} {r : PaymentRequest} (hid : lookupId E.py v = .ok (some r.id))
    (hr : db.requests.find r.id = some r) :
    ∀ r' ∈ db.requests.rows, lookupId E.py v = .ok (some r'.id) → r' = r := by
  intro r' hr' hid'
  have hpk : some r'.id = some r.id := Except.ok.inj (hid'.symm.trans hid)
  have hrow : db.requests.find r'.id = some r' := Table.find_of_mem hr'
  rw [Option.some.inj hpk, hr] at hrow
  exact (Option.some.inj hrow).symm

/-- **What one operation writes** -/
theorem amounts_step (hdiv : RoundedDivision E.py)
    (hpercent : 0 ≤ E.platformCommissionPercent ∧ E.platformCommissionPercent ≤ 100) (h : Inv E db) (hp : Priced db)
    (hs : Step E db op db') : NoEmptyRows db' ↔ NoEmptyRows db ∧ Fills E db op := by
  have hgoes : Proceeds E db op := ⟨db', hs⟩
  unfold Fills
  simp only [hgoes, true_implies]
  clear hgoes
  cases hs with
  | @createJob id employer data now w =>
    exact noEmptyRows_filled rfl ((by decide : (1 : ℤ) ≤ 100).trans data.price_min)
  | acceptJob => simp [NoEmptyRows]
  | startJob => simp [NoEmptyRows]
  | @completeJob jobId employer now j we ww worker hj =>
    have hrow := Table.mem_of_find hj.row
    rw [noEmptyRows_append rfl, ← shares_positive_iff hdiv hpercent (h.linked.jobs j hrow).price (hp j hrow),
      List.forall_mem_cons, List.forall_mem_singleton]
    exact Iff.rfl
  | @cancelJob jobId user reason now j w hj hcaller hopen hw =>
    have hprice := (h.linked.jobs j (Table.mem_of_find hj.row)).price
    obtain ⟨hheld, -⟩ := h.covered hj.row hopen hw
    refine noEmptyRows_filled rfl ?_
    change 1 ≤ min j.price w.heldBalance
    rw [min_eq_left hheld]
    omega
  | initiateDeposit => simp [NoEmptyRows]
  | @confirmDeposit v externalId r w hid hr =>
    rw [noEmptyRows_append rfl, List.forall_mem_singleton]
    have hnamed := named_request hid hr
    constructor
    · intro ⟨hrows, hamount⟩
      refine ⟨hrows, fun r' hr' hid' => ?_⟩
      rw [hnamed r' hr' hid']
      exact hamount
    · intro ⟨hrows, hall⟩
      exact ⟨hrows, hall r (Table.mem_of_find hr) hid⟩

/-- a call that does not go through leaves the database -/
theorem step_refused (h : ¬ Proceeds E db op) : step E db op = db := by
  rcases step_cases E db op with hs | hs
  · exact absurd ⟨_, hs⟩ h
  · exact hs

theorem step_proceeds (h : Proceeds E db op) : Step E db op (step E db op) := by
  obtain ⟨db', hs⟩ := h
  have hexec : exec store (op.prog E) db = .ok ((), db') := runs_prog.2 hs
  have hcall : step E db op = db' := by
    unfold step call
    rw [hexec]
  rw [hcall]
  exact hs

end Step

/-! ## Runs -/

/-- every operation of the run fills its rows, in the state it finds -/
def AllFill (E : Env) : DB → List Op → Prop
  | _, [] => True
  | db, op :: ops => Fills E db op ∧ AllFill E (step E db op) ops

section Runs

variable {E : Env} {db : DB}

/-- **The run lemma**, from any state that keeps the escrow. -/
theorem amounts_run (hdiv : RoundedDivision E.py)
    (hpercent : 0 ≤ E.platformCommissionPercent ∧ E.platformCommissionPercent ≤ 100) (h : Inv E db) (hp : Priced db)
    (ops : List Op) : NoEmptyRows (run E db ops) ↔ NoEmptyRows db ∧ AllFill E db ops := by
  induction ops generalizing db with
  | nil => simp [run, AllFill]
  | cons op ops ih =>
    change NoEmptyRows (run E (step E db op) ops) ↔ NoEmptyRows db ∧ Fills E db op ∧ AllFill E (step E db op) ops
    by_cases hgoes : Proceeds E db op
    · have hs := step_proceeds hgoes
      rw [ih (inv_step h hs) (priced_step hp hs), amounts_step hdiv hpercent h hp hs, and_assoc]
    · have hfills : Fills E db op := fun hgoes' => absurd hgoes' hgoes
      rw [step_refused hgoes, ih h hp]
      exact and_congr_right fun _ => (and_iff_right hfills).symm

/-- at 1 to 99 percent and with a least deposit, every run fills its rows -/
theorem allFill_of_settings (hpercent : 1 ≤ E.platformCommissionPercent ∧ E.platformCommissionPercent ≤ 99)
    (hleast : 1 ≤ E.minDeposit) (db : DB) (ops : List Op) : AllFill E db ops := by
  induction ops generalizing db with
  | nil => trivial
  | cons op ops ih =>
    refine ⟨fun hgoes => ?_, ih (step E db op)⟩
    obtain ⟨db', hs⟩ := hgoes
    cases hs with
    | completeJob => exact hpercent
    | @confirmDeposit v externalId r w hid hr hstatus hw hlimits =>
      intro r' hr' hid'
      rw [named_request hid hr r' hr' hid']
      exact hleast.trans hlimits.1
    | _ => trivial

end Runs

/-- **No empty ledger rows.** For every commission of 0 to 100 percent and every run from the empty state: every row of
the ledger has an amount of at least 1 if and only if every complete_job that goes through does so at 1 to 99 percent
and every confirmed request has an amount. -/
theorem no_empty_rows_iff (E : Env) (hdiv : RoundedDivision E.py)
    (hpercent : 0 ≤ E.platformCommissionPercent ∧ E.platformCommissionPercent ≤ 100) (users : Table User)
    (ops : List Op) : NoEmptyRows (run E (init users) ops) ↔ AllFill E (init users) ops := by
  have hnone : NoEmptyRows (init users) := List.forall_mem_nil _
  have hpriced : Priced (init users) := List.forall_mem_nil _
  rw [amounts_run hdiv hpercent (inv_init E users) hpriced ops]
  exact and_iff_right hnone

/-- the exact division is correctly rounded -/
theorem demoPy_rounded : RoundedDivision demoPy := by
  intro a b k hb _ _
  have hpos : (0 : ℚ) < b := by exact_mod_cast hb
  have hquot : demoPy.trueDiv a b = (a : ℚ) / b := rfl
  rw [hquot, le_div_iff₀ hpos, div_le_iff₀ hpos]
  constructor
  · intro h
    exact_mod_cast h
  · intro h
    exact_mod_cast h

theorem no_empty_rows_demo : NoEmptyRows (run demoEnv (init demoUsers) demoPaid) :=
  (no_empty_rows_iff demoEnv demoPy_rounded (by decide) demoUsers demoPaid).2
    (allFill_of_settings (by decide) (by decide) (init demoUsers) demoPaid)

/-- the same market without a commission -/
def freeEnv : Env := { demoEnv with platformCommissionPercent := 0 }

/-- the commission row of the completed job has amount 0 -/
theorem free_market_empty_row : RoundedDivision freeEnv.py ∧
    (0 ≤ freeEnv.platformCommissionPercent ∧ freeEnv.platformCommissionPercent ≤ 100) ∧
    (run freeEnv (init demoUsers) demoPaid).ledger.map (fun t => t.amount) = [500000, 100005, 0, 100005] ∧
    ¬ NoEmptyRows (run freeEnv (init demoUsers) demoPaid) := by
  refine ⟨demoPy_rounded, by decide, by decide +kernel, ?_⟩
  unfold NoEmptyRows
  decide +kernel

end GigMarketplace
