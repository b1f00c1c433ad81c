/-
What the statements of a call do, together with what the call answers (`Core/Threads.lean`).

`c.Answering R`: every statement of `c` relates the states around it and, if it is the last one, what `c` returns or
raises with it.

Results:
- `answering_query_bind` and the others: one rule for each way to build code;
- `accounts`: a figure of the state is what it was at first and what the entries have added, one by one.
-/
import Mathlib.Algebra.BigOperators.Group.List.Basic
import Mathlib.Algebra.GroupWithZero.Nat
import GigMarketplace.Core.Threads

namespace GigMarketplace.Core

variable {σ ε A B O N : Type}

namespace Code

def Answering (R : σ → σ → Option (Except ε A) → Prop) : Code σ ε A → Prop
  | ret _ => True
  | raise _ => True
  | stmt f next => ∀ s, R s (f s) (next s).result ∧ (next s).Answering R

theorem bind_bind {C : Type} (c : Code σ ε A) (k : A → Code σ ε B) (k' : B → Code σ ε C) :
    ((c >>= k) >>= k') = c >>= fun a => k a >>= k' := by
  induction c with
  | ret a => rfl
  | raise e => rfl
  | stmt f next ih => exact congrArg (stmt f) (funext ih)

section Rules

variable {R : σ → σ → Option (Except ε B) → Prop} {S : σ → σ → Prop}

/-- code that does the same whatever the call answers -/
theorem answering_each {c : Code σ ε B} (h : c.Each S) (hS : ∀ s s' x, S s s' → R s s' x) : c.Answering R := by
  induction c with
  | ret a => trivial
  | raise e => trivial
  | stmt f next ih =>
    intro s
    exact ⟨hS _ _ _ (h s).1, ih s (h s).2⟩

/-- a statement that reads, and then what was read is used -/
theorem answering_query_bind {q : σ → Except ε A} {k : A → Code σ ε B}
    (hok : ∀ s a, q s = .ok a → R s s (k a).result ∧ (k a).Answering R) (hraise : ∀ s e, R s s (some (.error e))) :
    (query q >>= k).Answering R := by
  intro s
  change R s s ((ofExcept (q s)).bind k).result ∧ ((ofExcept (q s)).bind k).Answering R
  cases hx : q s with
  | error e => exact ⟨hraise s e, trivial⟩
  | ok a => exact hok s a hx

/-- a statement that writes, and then a value that does not depend on it -/
theorem answering_act_bind {f : σ → Except ε (A × σ)} {k : A → Code σ ε B} (hk : ∀ a, (k a).Answering R)
    (hok : ∀ s x, f s = .ok x → R s x.2 (k x.1).result) (hraise : ∀ s e, R s s (some (.error e))) :
    (act f >>= k).Answering R := by
  intro s
  change R s (effect f s) ((ofExcept ((f s).map Prod.fst)).bind k).result ∧
    ((ofExcept ((f s).map Prod.fst)).bind k).Answering R
  unfold effect
  cases hx : f s with
  | error e => exact ⟨hraise s e, trivial⟩
  | ok x => exact ⟨hok s x hx, hk x.1⟩

end Rules

end Code

/-! ## The entries of a run -/

section Pool

variable {code : O → Code σ ε A} {nature : N → σ → σ} {R : O → σ → σ → Option (Except ε A) → Prop}

/-- the next statement of a call that is ready -/
theorem Ready.answering {K : σ → List (Entry σ ε A O) → Running σ ε A O → Prop}
    (hcode : ∀ o, (code o).Answering (R o)) (hK : ∀ s tr r, K s tr r → r.rest.Answering (R r.op)) {s : σ}
    {tr : List (Entry σ ε A O)} {r : Running σ ε A O} (hr : Ready code (fun _ => True) K s tr r) :
    r.rest.Answering (R r.op) := by
  rcases hr with ⟨o, -, rfl⟩ | hrun
  · exact hcode o
  · exact hK _ _ _ hrun

/-! ### Sums -/

section Figures

variable {figure : σ → ℕ} {added : O → σ → σ → Option (Except ε A) → ℕ}

/-- every statement adds to a figure what its call's answer says -/
def Adds (figure : σ → ℕ) (added : σ → σ → Option (Except ε A) → ℕ) (s s' : σ) (x : Option (Except ε A)) : Prop :=
  figure s' = figure s + added s s' x

def addedBy (added : O → σ → σ → Option (Except ε A) → ℕ) (e : Entry σ ε A O) : ℕ :=
  added e.op e.before e.after e.result

theorem accounts_rule (hcode : ∀ o, (code o).Answering (Adds figure (added o)))
    (hnature : ∀ n s, figure (nature n s) = figure s) (s₀ : σ) :
    PoolRule code nature (fun _ => True) (fun s tr => figure s = figure s₀ + (tr.map (addedBy added)).sum)
      fun _ _ r => r.rest.Answering (Adds figure (added r.op)) where
  own s tr c r f next hI hr hrest := by
    have hanswering := hr.answering hcode fun _ _ _ h => h
    rw [hrest] at hanswering
    obtain ⟨hadds, hnext⟩ := hanswering s
    refine ⟨?_, fun _ => hnext⟩
    calc figure (f s) = figure s + added r.op s (f s) (next s).result := hadds
      _ = figure s₀ + (tr.map (addedBy added)).sum + added r.op s (f s) (next s).result := by rw [hI]
      _ = figure s₀ + ((tr ++ [r.entry c tr.length s f (next s)]).map (addedBy added)).sum := by
        rw [List.map_append, List.sum_append, List.map_singleton, List.sum_singleton, ← Nat.add_assoc]
        rfl
  others s tr c r f next r' hI hr hrest hr' := hr'
  natural s tr n hI := ⟨(hnature n s).trans hI, fun _ h => h⟩

/-- **A figure and its entries.** It is what it was at first and what the entries have added, one by one. -/
theorem accounts (hcode : ∀ o, (code o).Answering (Adds figure (added o)))
    (hnature : ∀ n s, figure (nature n s) = figure s) (s : σ) (evs : List (PoolEvent O N)) :
    figure ((Pool.init s).run code nature evs).mem =
      figure s + (((Pool.init s).run code nature evs).trace.map (addedBy added)).sum :=
  (pool_inv (accounts_rule hcode hnature s) (poolInv_init rfl) fun _ _ _ => trivial).shared

end Figures

end Pool

end GigMarketplace.Core
