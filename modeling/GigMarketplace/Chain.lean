/-
The ledger as a chain: the rows of one wallet, in the order they were written, hand the balance on.

`Chain b rows c` reads: the first row starts at the balance `b`, each row starts where the one before it ended, and the
last one ends at `c` (no row at all: `c` is `b`). It says nothing about the amounts on the rows, which
`rows_explain_balances` of `Ledger.lean` ties to the two balances.

Results:
- `Step.posts`: an operation leaves the rows that are there and adds rows at the end; those about a wallet lead from its
  balance before to its balance after;
- `unbroken_chain`: in every state that the operations reach, the rows of each wallet lead from 0 to its balance, and
  the rows written so far are still there, unchanged and in place, after any further operations.
-/
import GigMarketplace.Ledger

namespace GigMarketplace

open GigMarketplace.Core

def Chain : ℤ → List Transaction → ℤ → Prop
  | b, [], c => c = b
  | b, t :: rows, c => t.balanceBefore = b ∧ Chain t.balanceAfter rows c

theorem Chain.append {a b c : ℤ} {l l' : List Transaction} (h : Chain a l b) (h' : Chain b l' c) :
    Chain a (l ++ l') c := by
  induction l generalizing a with
  | nil =>
    have hb : b = a := h
    rw [List.nil_append, ← hb]
    exact h'
  | cons t l ih =>
    obtain ⟨hbefore, hrest⟩ := h
    exact ⟨hbefore, ih hrest⟩

/-- the rows of the wallet `u` -/
def walletRows (db : DB) (u : Pk) : List Transaction := db.ledger.filter fun t => t.wallet = u

/-! ## What a step writes -/

/-- the rows `l` account for what has become of each balance -/
def Posted (db db' : DB) (l : List Transaction) : Prop :=
  ∀ u w', db'.wallets.find u = some w' →
    ∃ w, db.wallets.find u = some w ∧ Chain w.balance (l.filter fun t => t.wallet = u) w'.balance

section Steps

variable {E : Env} {db db' : DB} {op : Op}

/-- one row about one wallet, from its balance to the new one -/
theorem posted_one {owner : Pk} {w : Wallet} {f : Wallet → Wallet} {t : Transaction}
    (hw : db.wallets.find owner = some w) (hid : (f w).user = w.user)
    (hwallets : db'.wallets = db.wallets.update owner f) (howner : t.wallet = owner)
    (hbefore : t.balanceBefore = w.balance) (hafter : t.balanceAfter = (f w).balance) : Posted db db' [t] := by
  intro u w' hw'
  rw [hwallets] at hw'
  by_cases hu : owner = u
  · subst hu
    rw [Table.find_update_self hw hid] at hw'
    cases hw'
    refine ⟨w, hw, ?_⟩
    rw [List.filter_cons_of_pos (by simp [howner])]
    exact ⟨hbefore, hafter.symm⟩
  · rw [Table.find_update_ne hu] at hw'
    refine ⟨w', hw', ?_⟩
    rw [List.filter_cons_of_neg (by simpa [howner] using hu)]
    rfl

theorem Posted.trans {db₁ : DB} {l m : List Transaction} (h : Posted db db₁ l) (h' : Posted db₁ db' m) :
    Posted db db' (l ++ m) := by
  intro u w' hw'
  obtain ⟨w₁, hw₁, h2⟩ := h' u w' hw'
  obtain ⟨w, hw, h1⟩ := h u w₁ hw₁
  refine ⟨w, hw, ?_⟩
  rw [List.filter_append]
  exact h1.append h2

theorem posted_none (h : db'.wallets = db.wallets) : Posted db db' [] := by
  intro u w' hw'
  rw [h] at hw'
  exact ⟨w', hw', rfl⟩

/-- **A step's rows**: it appends rows to the ledger, and they account for every balance it changed. -/
theorem Step.posts (h : Step E db op db') : ∃ l, db'.ledger = db.ledger ++ l ∧ Posted db db' l := by
  cases h with
  | @createJob id employer data now w hrole hprice huser hfresh hw hcover hcols =>
    exact ⟨_, rfl, posted_one hw rfl rfl (Table.pk_of_find hw) rfl rfl⟩
  | @completeJob jobId employer now j we ww worker hj hrole hemployer hstatus hworker hwe hww hcols =>
    -- the held balance pays the commission: its row starts and ends at the available balance
    have hcharged : Posted db { db with
        wallets := db.wallets.update j.employer fun r => { r with heldBalance := we.heldBalance - j.price } }
        [commissionRow E j we] := posted_one hwe rfl rfl (Table.pk_of_find hwe) rfl rfl
    -- what the payout starts from is the balance read before, also if the two wallets were one
    obtain ⟨ww', hww', hkept⟩ : ∃ ww', (db.wallets.update j.employer fun r =>
        { r with heldBalance := we.heldBalance - j.price }).find worker = some ww' ∧ ww'.balance = ww.balance := by
      by_cases hne : j.employer = worker
      · subst hne
        rw [hwe] at hww
        cases hww
        exact ⟨_, Table.find_update_self hwe rfl, rfl⟩
      · exact ⟨ww, (Table.find_update_ne hne).trans hww, rfl⟩
    refine ⟨_, rfl, hcharged.trans (m := [releaseRow E j ww]) ?_⟩
    exact posted_one hww' rfl rfl (Table.pk_of_find hww) hkept.symm rfl
  | @cancelJob jobId user reason now j w hj hcaller hopen hw hcols =>
    exact ⟨_, rfl, posted_one hw rfl rfl (Table.pk_of_find hw) rfl rfl⟩
  | @confirmDeposit v externalId r w hid hr hstatus hw hlimits hcols =>
    exact ⟨_, rfl, posted_one hw rfl rfl (Table.pk_of_find hw) rfl rfl⟩
  | acceptJob => exact ⟨[], (List.append_nil _).symm, posted_none rfl⟩
  | startJob => exact ⟨[], (List.append_nil _).symm, posted_none rfl⟩
  | initiateDeposit => exact ⟨[], (List.append_nil _).symm, posted_none rfl⟩

end Steps

/-! ## Every reachable state -/

/-- the rows of every wallet lead from 0 to its balance -/
def Chained (db : DB) : Prop := ∀ u w, db.wallets.find u = some w → Chain 0 (walletRows db u) w.balance

section Runs

variable {E : Env} {db db' : DB} {op : Op}

theorem chained_init (users : Table User) : Chained (init users) := by
  intro u w hw
  rw [find_init_wallets] at hw
  obtain ⟨x, -, rfl⟩ := Option.map_eq_some_iff.1 hw
  rfl

theorem chained_step (h : Chained db) (hs : Step E db op db') : Chained db' := by
  obtain ⟨l, hl, hposted⟩ := hs.posts
  intro u w' hw'
  obtain ⟨w, hw, hchain⟩ := hposted u w' hw'
  have hrows : walletRows db' u = walletRows db u ++ l.filter fun t => t.wallet = u := by
    simp [walletRows, hl]
  rw [hrows]
  exact (h u w hw).append hchain

theorem chained_run (E : Env) (users : Table User) (ops : List Op) : Chained (run E (init users) ops) :=
  run_inv (fun _ _ _ h hs => chained_step h hs) (chained_init users) ops

/-- rows are never changed or removed -/
theorem run_ledger (E : Env) (db : DB) (ops : List Op) : db.ledger <+: (run E db ops).ledger := by
  refine run_inv (P := fun d => db.ledger <+: d.ledger) (fun d op d' h hs => ?_) (List.prefix_refl _) ops
  obtain ⟨l, hl, -⟩ := hs.posts
  rw [hl]
  exact h.trans (List.prefix_append _ _)

end Runs

/-- **The ledger is an unbroken append-only chain per wallet.** After any operations the rows of each wallet lead from
0 to its balance, and any further operations leave the rows written so far as they are. -/
theorem unbroken_chain (E : Env) (users : Table User) (ops : List Op) :
    (∀ w ∈ (run E (init users) ops).wallets.rows,
      Chain 0 (walletRows (run E (init users) ops) w.user) w.balance) ∧
    ∀ ops', (run E (init users) ops).ledger <+: (run E (init users) (ops ++ ops')).ledger := by
  refine ⟨fun w hw => ?_, fun ops' => ?_⟩
  · exact chained_run E users ops w.user w (Table.find_of_mem hw)
  · rw [run_append]
    exact run_ledger E _ ops'

/-- the worker's wallet after the payout -/
theorem unbroken_chain_demo : Chain 0 (walletRows (run demoEnv (init demoUsers) demoPaid) 2) 90005 :=
  (unbroken_chain demoEnv demoUsers demoPaid).1 ⟨2, 90005, 0, 90005, 0⟩ (by decide +kernel)

/-- the wallet of the employer: a deposit, an escrow payment and a commission -/
example : (walletRows (run demoEnv (init demoUsers) demoPaid) 1).map (fun t => (t.balanceBefore, t.balanceAfter)) =
    [(0, 500000), (500000, 399995), (399995, 399995)] := by decide +kernel

end GigMarketplace
