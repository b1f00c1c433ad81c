/-
The books of a market that users join while it is open.

`System.lean` runs the operations over a fixed table of users. Here a user may also join: the INSERT of
`get_or_create` adds the user's row, and the post_save signal of `apps/accounts/signals.py` an empty wallet. `Market`
collects what the operations keep true of a database.

Results:
- `market_step`, `market_join`: every operation keeps it, and so does a user who joins: nothing in the books is owed to
  a user who was not there;
- `Market.conservation`: what the wallets hold with the commission taken is what was deposited.
-/
import GigMarketplace.Ledger

namespace GigMarketplace

open GigMarketplace.Core

/-- what holds of the tables after any operations -/
structure Market (E : Env) (db : DB) : Prop where
  inv : Inv E db
  totals : Totals E db
  jobs : JobLedger db
  rows : Explained db
  owned : ∀ t ∈ db.ledger, (db.wallets.find t.wallet).isSome

theorem market_init (E : Env) (users : Table User) : Market E (init users) where
  inv := inv_init E users
  totals := totals_run E users []
  jobs := jobLedger_run E users []
  rows := explained_run E users []
  owned := by
    intro t ht
    cases ht

section Steps

variable {E : Env} {db db' : DB} {op : Op}

/-- a row of the ledger is written for a wallet that is there -/
theorem Step.ledger_from (h : Step E db op db') {t : Transaction} (ht : t ∈ db'.ledger) :
    t ∈ db.ledger ∨ (db.wallets.find t.wallet).isSome := by
  have hrow : ∀ {u : Pk} {w : Wallet}, db.wallets.find u = some w → (db.wallets.find w.user).isSome := by
    intro u w hw
    have hu : w.user = u := Table.pk_of_find hw
    rw [hu, hw]
    rfl
  cases h with
  | createJob hrole hprice huser hfresh hw hcover hcols =>
    rcases List.mem_append.1 ht with ht | ht
    · exact Or.inl ht
    · cases List.mem_singleton.1 ht
      exact Or.inr (hrow hw)
  | completeJob hj hrole hemployer hstatus hworker hwe hww hcols =>
    rcases List.mem_append.1 ht with ht | ht
    · exact Or.inl ht
    · rcases List.mem_pair.1 ht with rfl | rfl
      · exact Or.inr (hrow hwe)
      · exact Or.inr (hrow hww)
  | cancelJob hj hcaller hopen hw hcols =>
    rcases List.mem_append.1 ht with ht | ht
    · exact Or.inl ht
    · cases List.mem_singleton.1 ht
      exact Or.inr (hrow hw)
  | confirmDeposit hid hr hstatus hw hlimits hcols =>
    rcases List.mem_append.1 ht with ht | ht
    · exact Or.inl ht
    · cases List.mem_singleton.1 ht
      exact Or.inr (hrow hw)
  | _ => exact Or.inl ht

theorem market_step (h : Market E db) (hs : Step E db op db') : Market E db' where
  inv := inv_step h.inv hs
  totals := totals_step h.totals hs
  jobs := jobLedger_step h.inv h.jobs hs
  rows := explained_step h.inv.linked h.rows hs
  owned := by
    intro t ht
    rw [hs.wallets]
    rcases hs.ledger_from ht with hold | hnew
    · exact h.owned t hold
    · exact hnew

end Steps

/-! ## Joining -/

/-- the row of a new user, and the wallet that the signal adds -/
def joined (db : DB) (id : Pk) (role : String) : DB :=
  { db with users := db.users.insert ⟨id, role⟩, wallets := db.wallets.insert ⟨id, 0, 0, 0, 0⟩ }

section Join

variable {E : Env} {db : DB} {id : Pk} {role : String}

/-- more users -/
theorem Job.Ok.grow {users users' : Table User} {j : Job} (h : j.Ok users)
    (hgrow : ∀ u, (users.find u).isSome → (users'.find u).isSome) : j.Ok users' where
  price := h.price
  employer := hgrow _ h.employer
  worker := fun u hu => ⟨hgrow u (h.worker u hu).1, (h.worker u hu).2⟩
  created := h.created
  assigned := h.assigned

theorem isSome_find_insert {A : Type} [Keyed A Pk] (t : Table A) (r : A) (u : Pk) :
    ((t.insert r).find u).isSome = (decide (pk r = u) || (t.find u).isSome) := by
  rw [Table.find_insert]
  by_cases hu : pk r = u <;> simp [hu]

theorem Linked.wallet_none (h : Linked db) (hnew : db.users.find id = none) : db.wallets.find id = none := by
  have hsome := h.wallets id
  rw [hnew] at hsome
  exact Option.isNone_iff_eq_none.1 (Option.isSome_eq_false_iff.1 hsome)

theorem linked_join (h : Linked db) : Linked (joined db id role) where
  wallets := fun u => by
    simp only [joined, isSome_find_insert, pk_wallet, pk_user, h.wallets u]
  jobs := fun j hj => (h.jobs j hj).grow fun u hu => by
    rw [joined, isSome_find_insert, hu, Bool.or_true]
  requests := fun r hr => by
    rw [joined, isSome_find_insert, h.requests r hr, Bool.or_true]

/-- nobody owes anything to a user who is not there -/
theorem figure_stranger (h : Linked db) (hnew : db.wallets.find id = none) (f : Escrow.Figure) :
    (book E db).figure id f = 0 := by
  apply h.within.figure_eq_zero
  intro hmem
  obtain ⟨w, hw, hid⟩ := List.mem_map.1 (List.mem_toFinset.1 hmem)
  rw [← hid, Table.find_of_mem hw] at hnew
  cases hnew

theorem find_joined {u : Pk} {w : Wallet} (hnew : db.wallets.find id = none)
    (hw : (joined db id role).wallets.find u = some w) :
    (u = id ∧ w = ⟨id, 0, 0, 0, 0⟩) ∨ db.wallets.find u = some w := by
  rw [joined, Table.find_insert, pk_wallet] at hw
  split_ifs at hw with hu
  · subst hu
    rw [hnew] at hw
    cases hw
    exact Or.inl ⟨rfl, rfl⟩
  · exact Or.inr hw

/-- **A user who joins** changes nothing in the books, and the new wallet agrees with them. -/
theorem market_join (h : Market E db) (hnew : db.users.find id = none) : Market E (joined db id role) := by
  have hwallet : db.wallets.find id = none := h.inv.linked.wallet_none hnew
  refine ⟨⟨linked_join h.inv.linked, ?_, h.inv.sound⟩, ⟨h.totals.commission, h.totals.deposit⟩,
    ⟨h.jobs.known, h.jobs.accounted⟩, ⟨h.rows.rows, ?_⟩, ?_⟩
  · intro u w hw f
    rcases find_joined hwallet hw with ⟨rfl, rfl⟩ | hold
    · have hzero : (book E (joined db u role)).figure u f = 0 := figure_stranger h.inv.linked hwallet f
      rw [hzero]
      cases f <;> rfl
    · exact h.inv.figures u w hold f
  · intro u w hw
    rcases find_joined hwallet hw with ⟨rfl, rfl⟩ | hold
    · -- no row of the ledger is about the new wallet
      apply List.sum_eq_zero
      intro x hx
      obtain ⟨t, ht, rfl⟩ := List.mem_map.1 hx
      apply if_neg
      rintro ⟨hu, -⟩
      have hsome := h.owned t ht
      rw [hu, hwallet] at hsome
      cases hsome
    · exact h.rows.net u w hold
  · intro t ht
    rw [joined, isSome_find_insert, h.owned t ht, Bool.or_true]

end Join

/-- **Conservation**, whoever has joined. -/
theorem Market.conservation {E : Env} {db : DB} (h : Market E db) :
    db.wallets.sum (fun w => w.balance + w.heldBalance) + ledgerSum db .commission = ledgerSum db .deposit ∧
      ledgerSum db .deposit = completedDeposits db := by
  have hcons := Escrow.conservation (book E db) h.inv.linked.within
  rw [book_charged, book_deposited, Finset.sum_add_distrib, h.inv.sum_owners, h.inv.sum_owners] at hcons
  have hsplit : db.wallets.sum (fun w => w.balance + w.heldBalance) =
      db.wallets.sum (·.figure .available) + db.wallets.sum (·.figure .held) := Table.sum_add ..
  refine ⟨?_, h.totals.deposit⟩
  rw [h.totals.commission, h.totals.deposit, hsplit]
  exact hcons

end GigMarketplace
