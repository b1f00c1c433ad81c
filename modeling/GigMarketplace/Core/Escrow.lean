/-
Escrow accounting, abstractly: what each party of a set of deals may call its own.

A deal is funded by its payer, and ends paid (its price, less a fee, goes to the payee) or returned. A book holds the
deals and the deposits made so far; a party's figures are sums over the book, so nothing can be out of step with it:
- held: the price of the funded deals the party pays for;
- spent: the price of its deals that were not returned;
- earned: price less fee of the paid deals it was the payee of;
- available: its deposits, plus earned, less spent.

`Step` is every lawful change of a book: a deposit, a new deal covered by what its payer has available, the choice of a
payee, payment, return. Parties and money are arbitrary (a linearly ordered group). Nothing here names a program.

Results:
- `figure_cons`, `figure_deposit`: a change of one deal, or a deposit, changes a figure by that alone;
- `conservation`: over all parties, available and held together are the deposits less the fees of the paid deals;
- `Sound.step`: no party's available figure is ever negative, and what a party holds covers each of its funded deals
  (`Sound.price_le_held`, `Sound.price_le_spent`).
-/
import Mathlib.Algebra.BigOperators.Group.Finset.Basic
import Mathlib.Algebra.BigOperators.Group.Finset.Piecewise
import Mathlib.Algebra.Order.BigOperators.Group.Multiset
import Mathlib.Tactic.Abel
import Mathlib.Tactic.Linarith

namespace GigMarketplace.Core.Escrow

inductive Phase where
  | funded
  | paid
  | returned
deriving DecidableEq, Repr

inductive Figure where
  | available
  | held
  | earned
  | spent
deriving DecidableEq, Repr

structure Deal (U M : Type) where
  payer : U
  payee : Option U
  price : M
  /-- what the payee does not get when the deal is paid -/
  fee : M
  phase : Phase

structure Book (U M : Type) where
  deals : Multiset (Deal U M)
  deposits : Multiset (U × M)

variable {U M : Type} [DecidableEq U]

/-! ## Figures -/

section Figures

variable [AddCommGroup M]

def Deal.held (d : Deal U M) (u : U) : M := if d.payer = u ∧ d.phase = .funded then d.price else 0

def Deal.spent (d : Deal U M) (u : U) : M := if d.payer = u ∧ d.phase ≠ .returned then d.price else 0

def Deal.earned (d : Deal U M) (u : U) : M := if d.payee = some u ∧ d.phase = .paid then d.price - d.fee else 0

def Deal.figure (d : Deal U M) (u : U) : Figure → M
  | .available => d.earned u - d.spent u
  | .held => d.held u
  | .earned => d.earned u
  | .spent => d.spent u

/-- the fee, once it is taken -/
def Deal.charged (d : Deal U M) : M := if d.phase = .paid then d.fee else 0

def paidIn (p : U × M) (u : U) : Figure → M
  | .available => if p.1 = u then p.2 else 0
  | _ => 0

def Book.figure (b : Book U M) (u : U) (f : Figure) : M :=
  (b.deals.map fun d => d.figure u f).sum + (b.deposits.map fun p => paidIn p u f).sum

def Book.charged (b : Book U M) : M := (b.deals.map Deal.charged).sum

def Book.deposited (b : Book U M) : M := (b.deposits.map Prod.snd).sum

theorem figure_cons (d : Deal U M) (s : Multiset (Deal U M)) (t : Multiset (U × M)) (u : U) (f : Figure) :
    (Book.mk (d ::ₘ s) t).figure u f = d.figure u f + (Book.mk s t).figure u f := by
  simp only [Book.figure, Multiset.map_cons, Multiset.sum_cons]
  abel

/-- what the exchange of one deal for another changes -/
theorem figure_swap {b b' : Book U M} {d d' : Deal U M} {s : Multiset (Deal U M)} {t : Multiset (U × M)}
    (hb : b = ⟨d ::ₘ s, t⟩) (hb' : b' = ⟨d' ::ₘ s, t⟩) (u : U) (f : Figure) :
    b'.figure u f = b.figure u f - d.figure u f + d'.figure u f := by
  rw [hb, hb', figure_cons, figure_cons]
  abel

theorem figure_deposit (p : U × M) (s : Multiset (Deal U M)) (t : Multiset (U × M)) (u : U) (f : Figure) :
    (Book.mk s (p ::ₘ t)).figure u f = paidIn p u f + (Book.mk s t).figure u f := by
  simp only [Book.figure, Multiset.map_cons, Multiset.sum_cons]
  abel

theorem sum_paidIn_other (t : Multiset (U × M)) (u : U) {f : Figure} (hf : f ≠ .available) :
    (t.map fun p => paidIn p u f).sum = 0 := by
  refine Multiset.sum_eq_zero fun x hx => ?_
  obtain ⟨p, -, rfl⟩ := Multiset.mem_map.1 hx
  cases f with
  | available => exact absurd rfl hf
  | _ => rfl

/-- what is available was deposited or earned, and not spent -/
theorem figure_available_eq (b : Book U M) (u : U) :
    b.figure u .available =
      (b.deposits.map fun p => paidIn p u .available).sum + b.figure u .earned - b.figure u .spent := by
  simp only [Book.figure, Deal.figure, Multiset.sum_map_sub, sum_paidIn_other b.deposits u (f := .earned) (by simp),
    sum_paidIn_other b.deposits u (f := .spent) (by simp)]
  abel

/-! ## Conservation -/

/-- every party the book owes anything to is in `S` -/
structure Book.Within (b : Book U M) (S : Finset U) : Prop where
  payer : ∀ d ∈ b.deals, d.payer ∈ S
  payee : ∀ d ∈ b.deals, d.phase = .paid → ∃ u ∈ S, d.payee = some u
  deposits : ∀ p ∈ b.deposits, p.1 ∈ S

/-- the book owes nothing to anyone else -/
theorem Book.Within.figure_eq_zero {b : Book U M} {S : Finset U} (h : b.Within S) {u : U} (hu : u ∉ S) (f : Figure) :
    b.figure u f = 0 := by
  have hdeals : ∀ d ∈ b.deals, d.figure u f = 0 := by
    intro d hd
    have hpayer : d.payer ≠ u := fun he => hu (he ▸ h.payer d hd)
    have hheld : d.held u = 0 := if_neg fun hc => hpayer hc.1
    have hspent : d.spent u = 0 := if_neg fun hc => hpayer hc.1
    have hearned : d.earned u = 0 := by
      apply if_neg
      rintro ⟨hpayee, hpaid⟩
      obtain ⟨v, hv, hd'⟩ := h.payee d hd hpaid
      cases hpayee.symm.trans hd'
      exact hu hv
    cases f <;> simp [Deal.figure, hheld, hspent, hearned]
  have hdeposits : ∀ p ∈ b.deposits, paidIn p u f = 0 := by
    intro p hp
    have hne : p.1 ≠ u := fun he => hu (he ▸ h.deposits p hp)
    cases f <;> simp [paidIn, hne]
  have hsum : (b.deals.map fun d => d.figure u f).sum = 0 := by
    apply Multiset.sum_eq_zero
    intro x hx
    obtain ⟨d, hd, rfl⟩ := Multiset.mem_map.1 hx
    exact hdeals d hd
  have hsum' : (b.deposits.map fun p => paidIn p u f).sum = 0 := by
    apply Multiset.sum_eq_zero
    intro x hx
    obtain ⟨p, hp, rfl⟩ := Multiset.mem_map.1 hx
    exact hdeposits p hp
  unfold Book.figure
  rw [hsum, hsum', add_zero]

theorem Deal.sum_spent (d : Deal U M) {S : Finset U} (h : d.payer ∈ S) :
    ∑ u ∈ S, d.spent u = if d.phase ≠ .returned then d.price else 0 := by
  simp only [Deal.spent, ite_and]
  rw [Finset.sum_ite_eq S d.payer, if_pos h]

theorem Deal.sum_held (d : Deal U M) {S : Finset U} (h : d.payer ∈ S) :
    ∑ u ∈ S, d.held u = if d.phase = .funded then d.price else 0 := by
  simp only [Deal.held, ite_and]
  rw [Finset.sum_ite_eq S d.payer, if_pos h]

theorem Deal.sum_earned (d : Deal U M) {S : Finset U} (h : d.phase = .paid → ∃ u ∈ S, d.payee = some u) :
    ∑ u ∈ S, d.earned u = if d.phase = .paid then d.price - d.fee else 0 := by
  by_cases hp : d.phase = .paid
  · obtain ⟨v, hv, he⟩ := h hp
    simp only [Deal.earned, he, hp, Option.some.injEq, and_true, if_true]
    rw [Finset.sum_ite_eq S v, if_pos hv]
  · simp [Deal.earned, hp]

/-- what one deal takes out of the parties' hands -/
theorem Deal.conservation (d : Deal U M) {S : Finset U} (hpayer : d.payer ∈ S)
    (hpayee : d.phase = .paid → ∃ u ∈ S, d.payee = some u) :
    ∑ u ∈ S, (d.figure u .available + d.figure u .held) = - d.charged := by
  simp only [Deal.figure, Finset.sum_add_distrib, Finset.sum_sub_distrib, d.sum_spent hpayer, d.sum_held hpayer,
    d.sum_earned hpayee, Deal.charged]
  cases d.phase <;> simp

/-- **Conservation.** What the parties have available and held, with the fees taken, is what was deposited. -/
theorem conservation (b : Book U M) {S : Finset U} (h : b.Within S) :
    (∑ u ∈ S, (b.figure u .available + b.figure u .held)) + b.charged = b.deposited := by
  obtain ⟨deals, deposits⟩ := b
  induction deals using Multiset.induction with
  | empty =>
    induction deposits using Multiset.induction with
    | empty => simp [Book.figure, Book.charged, Book.deposited]
    | cons p t ih =>
      have hp : p.1 ∈ S := h.deposits p (Multiset.mem_cons_self p t)
      have ht := ih ⟨h.payer, h.payee, fun q hq => h.deposits q (Multiset.mem_cons_of_mem hq)⟩
      have hsum : ∑ u ∈ S, (paidIn p u .available + paidIn p u .held) = p.2 := by
        simp only [paidIn, add_zero]
        rw [Finset.sum_ite_eq S p.1, if_pos hp]
      simp only [figure_deposit, Book.charged, Book.deposited, Multiset.map_cons, Multiset.sum_cons] at ht ⊢
      rw [← ht, ← hsum]
      simp only [Finset.sum_add_distrib]
      abel
  | cons d s ih =>
    have hs := ih ⟨fun e he => h.payer e (Multiset.mem_cons_of_mem he),
      fun e he => h.payee e (Multiset.mem_cons_of_mem he), h.deposits⟩
    have hd := d.conservation (h.payer d (Multiset.mem_cons_self d s)) (h.payee d (Multiset.mem_cons_self d s))
    simp only [figure_cons, Book.charged, Book.deposited, Multiset.map_cons, Multiset.sum_cons] at hs ⊢
    simp only [Finset.sum_add_distrib] at hs hd ⊢
    have hzero : ∑ u ∈ S, d.figure u .available + ∑ u ∈ S, d.figure u .held + d.charged = 0 := by
      rw [hd]; abel
    calc
      _ = (∑ u ∈ S, d.figure u .available + ∑ u ∈ S, d.figure u .held + d.charged) +
          (∑ u ∈ S, (Book.mk s deposits).figure u .available + ∑ u ∈ S, (Book.mk s deposits).figure u .held +
            (s.map Deal.charged).sum) := by abel
      _ = _ := by rw [hzero, zero_add, hs]

/-- a deal's payee matters only once the deal is paid -/
theorem figure_assign (d : Deal U M) (p : Option U) (h : d.phase = .funded) (u : U) (f : Figure) :
    ({ d with payee := p } : Deal U M).figure u f = d.figure u f := by
  cases f <;> simp [Deal.figure, Deal.earned, Deal.spent, Deal.held, h]

/-- what a payer's figures show of the price of a funded deal -/
def stake (price : M) : Figure → M
  | .available => -price
  | .held => price
  | .earned => 0
  | .spent => price

theorem figure_funded (d : Deal U M) (h : d.phase = .funded) (u : U) (f : Figure) :
    d.figure u f = if d.payer = u then stake d.price f else 0 := by
  cases f <;> by_cases hu : d.payer = u <;> simp [Deal.figure, Deal.earned, Deal.spent, Deal.held, stake, h, hu]

theorem figure_returned (d : Deal U M) (h : d.phase = .returned) (u : U) (f : Figure) : d.figure u f = 0 := by
  cases f <;> simp [Deal.figure, Deal.earned, Deal.spent, Deal.held, h]

/-- what leaves a payer's figures when the deal is paid -/
def freed (price : M) : Figure → M
  | .held => price
  | _ => 0

/-- what a paid deal brings its payee -/
def payout (net : M) : Figure → M
  | .available => net
  | .earned => net
  | _ => 0

theorem figure_paid (d : Deal U M) (h : d.phase = .funded) {v : U} (hv : d.payee = some v) (u : U) (f : Figure) :
    ({ d with phase := .paid } : Deal U M).figure u f =
      d.figure u f - (if d.payer = u then freed d.price f else 0) +
        (if v = u then payout (d.price - d.fee) f else 0) := by
  cases f <;> by_cases hp : d.payer = u <;> by_cases hu : v = u <;>
    simp [Deal.figure, Deal.earned, Deal.spent, Deal.held, freed, payout, h, hv, hp, hu, add_comm, sub_eq_add_neg]

end Figures

/-! ## Lawful changes -/

section Order

variable [AddCommGroup M] [LinearOrder M]

inductive Step : Book U M → Book U M → Prop where
  | deposit {s : Multiset (Deal U M)} {t : Multiset (U × M)} (u : U) {a : M} (ha : 0 ≤ a) :
      Step ⟨s, t⟩ ⟨s, (u, a) ::ₘ t⟩
  | fund {s : Multiset (Deal U M)} {t : Multiset (U × M)} (payer : U) {price : M} (fee : M) (hp : 0 ≤ price)
      (hcover : price ≤ (Book.mk s t).figure payer .available) :
      Step ⟨s, t⟩ ⟨⟨payer, none, price, fee, .funded⟩ ::ₘ s, t⟩
  | assign {d : Deal U M} {s : Multiset (Deal U M)} {t : Multiset (U × M)} (u : U) (h : d.phase = .funded) :
      Step ⟨d ::ₘ s, t⟩ ⟨{ d with payee := some u } ::ₘ s, t⟩
  | pay {d : Deal U M} {s : Multiset (Deal U M)} {t : Multiset (U × M)} (h : d.phase = .funded)
      (hpayee : d.payee ≠ none) (hfee : 0 ≤ d.fee ∧ d.fee ≤ d.price) :
      Step ⟨d ::ₘ s, t⟩ ⟨{ d with phase := .paid } ::ₘ s, t⟩
  | giveBack {d : Deal U M} {s : Multiset (Deal U M)} {t : Multiset (U × M)} (h : d.phase = .funded) :
      Step ⟨d ::ₘ s, t⟩ ⟨{ d with phase := .returned } ::ₘ s, t⟩

structure Sound (b : Book U M) : Prop where
  price : ∀ d ∈ b.deals, 0 ≤ d.price
  available : ∀ u, 0 ≤ b.figure u .available

theorem sound_empty : Sound (⟨0, 0⟩ : Book U M) := ⟨by simp, by simp [Book.figure]⟩

variable [IsOrderedAddMonoid M]

/-- one deal changed, no price and no one's available figure lowered -/
theorem Sound.replace {d d' : Deal U M} {s : Multiset (Deal U M)} {t : Multiset (U × M)} (h : Sound ⟨d ::ₘ s, t⟩)
    (hp : 0 ≤ d'.price) (hle : ∀ u, d.figure u .available ≤ d'.figure u .available) : Sound ⟨d' ::ₘ s, t⟩ where
  price := fun e he => by
    rcases Multiset.mem_cons.1 he with rfl | he
    · exact hp
    · exact h.price e (Multiset.mem_cons_of_mem he)
  available := fun u => by
    have hu := h.available u
    rw [figure_cons] at hu ⊢
    exact hu.trans (add_le_add_left (hle u) _)

/-- **No overdraft.** Lawful changes keep every party's available figure at least zero. -/
theorem Sound.step {b b' : Book U M} (h : Sound b) (hs : Step b b') : Sound b' := by
  cases hs with
  | deposit u ha =>
    refine ⟨h.price, fun v => ?_⟩
    rw [figure_deposit]
    refine add_nonneg ?_ (h.available v)
    simp only [paidIn]
    split_ifs
    · exact ha
    · exact le_rfl
  | @fund s t payer price fee hp hcover =>
    refine ⟨fun e he => ?_, fun v => ?_⟩
    · rcases Multiset.mem_cons.1 he with rfl | he
      · exact hp
      · exact h.price e he
    · rw [figure_cons]
      by_cases hv : payer = v
      · subst hv
        simpa [Deal.figure, Deal.earned, Deal.spent] using hcover
      · simpa [Deal.figure, Deal.earned, Deal.spent, hv] using h.available v
  | @assign d s t u hf =>
    exact h.replace (h.price d (Multiset.mem_cons_self d s)) fun v => (figure_assign d (some u) hf v .available).ge
  | @pay d s t hf hpayee hfee =>
    have hp := h.price d (Multiset.mem_cons_self d s)
    refine h.replace hp fun v => ?_
    have hearned : 0 ≤ ({ d with phase := .paid } : Deal U M).earned v := by
      simp only [Deal.earned]
      split_ifs
      · exact sub_nonneg.2 hfee.2
      · exact le_rfl
    simpa [Deal.figure, Deal.earned, Deal.spent, hf] using hearned
  | @giveBack d s t hf =>
    have hp := h.price d (Multiset.mem_cons_self d s)
    refine h.replace hp fun v => ?_
    simp only [Deal.figure, Deal.earned, Deal.spent, hf, reduceCtorEq, and_false, if_false, ne_eq, not_false_eq_true,
      and_true, not_true, sub_zero, zero_sub, Left.neg_nonpos_iff]
    split_ifs
    · exact hp
    · exact le_rfl

/-- a figure to which every deal adds at least zero is at least what one of the deals adds -/
theorem le_figure {b : Book U M} {d : Deal U M} (hd : d ∈ b.deals) {u : U} {f : Figure} (hf : f ≠ .available)
    (hpos : ∀ e ∈ b.deals, 0 ≤ e.figure u f) : d.figure u f ≤ b.figure u f := by
  obtain ⟨deals, t⟩ := b
  obtain ⟨s, rfl⟩ := Multiset.exists_cons_of_mem hd
  rw [figure_cons]
  refine le_add_of_nonneg_right ?_
  simp only [Book.figure, sum_paidIn_other t u hf, add_zero]
  refine Multiset.sum_nonneg fun x hx => ?_
  obtain ⟨e, he, rfl⟩ := Multiset.mem_map.1 hx
  exact hpos e (Multiset.mem_cons_of_mem he)

/-- **The escrow covers each funded deal.** -/
theorem Sound.price_le_held {b : Book U M} (h : Sound b) {d : Deal U M} (hd : d ∈ b.deals) (hf : d.phase = .funded) :
    d.price ≤ b.figure d.payer .held := by
  refine le_trans (le_of_eq ?_) (le_figure (f := .held) hd (by simp) fun e he => ?_)
  · simp [Deal.figure, Deal.held, hf]
  · simp only [Deal.figure, Deal.held]
    split_ifs
    · exact h.price e he
    · exact le_rfl

theorem Sound.price_le_spent {b : Book U M} (h : Sound b) {d : Deal U M} (hd : d ∈ b.deals) (hf : d.phase = .funded) :
    d.price ≤ b.figure d.payer .spent := by
  refine le_trans (le_of_eq ?_) (le_figure (f := .spent) hd (by simp) fun e he => ?_)
  · simp [Deal.figure, Deal.spent, hf]
  · simp only [Deal.figure, Deal.spent]
    split_ifs
    · exact h.price e he
    · exact le_rfl

end Order

end GigMarketplace.Core.Escrow
