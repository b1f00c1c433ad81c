/-
Triples for calls whose statements interleave (`Core/Threads.lean`).

Between two statements of a call the state changes under it, so no precondition on the state lasts; what lasts is an
invariant `J` that all calls keep. `c.Keeps J R Q`: wherever `J` holds, the next statement of `c` keeps it and relates
the states around it by `R`, and a value that `c` returns satisfies `Q`. `Q` is about the value alone, so what a call
has read stays known to it only as far as it does not depend on the state.

Results:
- `keeps_bind`, `keeps_query`, `keeps_act` and the others: one rule for each way to build code;
- `pool_keeps`: if all calls keep `J`, it holds throughout, and every entry relates its states by the `R` of its call.
-/
import GigMarketplace.Core.Threads

namespace GigMarketplace.Core

variable {σ ε A B O N : Type}

namespace Code

def Keeps (J : σ → Prop) (R : σ → σ → Prop) (Q : A → Prop) : Code σ ε A → Prop
  | ret a => Q a
  | raise _ => True
  | stmt f next => ∀ s, J s → (J (f s) ∧ R s (f s)) ∧ (next s).Keeps J R Q

section Rules

variable {J : σ → Prop} {R : σ → σ → Prop} {P : A → Prop} {Q : B → Prop}

theorem keeps_bind {c : Code σ ε A} {k : A → Code σ ε B} (h : c.Keeps J R P) (hk : ∀ a, P a → (k a).Keeps J R Q) :
    (c >>= k).Keeps J R Q := by
  induction c with
  | ret a => exact hk a h
  | raise e => exact h
  | stmt f next ih =>
    intro s hs
    exact ⟨(h s hs).1, ih s (h s hs).2⟩

theorem keeps_raiseIf (c : Prop) [Decidable c] (e : ε) : (raiseIf c e : Code σ ε Unit).Keeps J R fun _ => ¬ c := by
  unfold raiseIf
  split_ifs with h
  · trivial
  · exact h

theorem keeps_ofExcept {x : Except ε A} (h : ∀ a, x = .ok a → P a) : (ofExcept x : Code σ ε A).Keeps J R P := by
  cases x with
  | ok a => exact h a rfl
  | error e => trivial

theorem keeps_query (hrefl : ∀ s, R s s) {q : σ → Except ε A} (h : ∀ s a, J s → q s = .ok a → P a) :
    (query q).Keeps J R P := by
  intro s hs
  exact ⟨⟨hs, hrefl s⟩, keeps_ofExcept fun a ha => h s a hs ha⟩

theorem keeps_act (hrefl : ∀ s, R s s) {f : σ → Except ε (A × σ)}
    (h : ∀ s x, J s → f s = .ok x → J x.2 ∧ R s x.2 ∧ P x.1) : (act f).Keeps J R P := by
  intro s hs
  cases hx : f s with
  | error e =>
    have heffect : effect f s = s := by simp only [effect, hx]
    rw [heffect]
    refine ⟨⟨hs, hrefl s⟩, keeps_ofExcept fun a ha => ?_⟩
    rw [hx] at ha
    cases ha
  | ok x =>
    have heffect : effect f s = x.2 := by simp only [effect, hx]
    obtain ⟨hJ, hR, hP⟩ := h s x hs hx
    rw [heffect]
    refine ⟨⟨hJ, hR⟩, keeps_ofExcept fun a ha => ?_⟩
    rw [hx] at ha
    cases ha
    exact hP

theorem Keeps.post {c : Code σ ε A} {P' : A → Prop} (h : c.Keeps J R P) (hP : ∀ a, P a → P' a) : c.Keeps J R P' := by
  induction c with
  | ret a => exact hP a h
  | raise e => exact h
  | stmt f next ih =>
    intro s hs
    exact ⟨(h s hs).1, ih s (h s hs).2⟩

theorem Keeps.step {c : Code σ ε A} {R' : σ → σ → Prop} (h : c.Keeps J R P) (hR : ∀ s s', R s s' → R' s s') :
    c.Keeps J R' P := by
  induction c with
  | ret a => exact h
  | raise e => exact h
  | stmt f next ih =>
    intro s hs
    obtain ⟨⟨hJ, hrel⟩, hnext⟩ := h s hs
    exact ⟨⟨hJ, hR _ _ hrel⟩, ih s hnext⟩

end Rules

end Code

/-! ## The pool -/

section Pool

variable {code : O → Code σ ε A} {nature : N → σ → σ} {J : σ → Prop} {R : O → σ → σ → Prop} {P : A → Prop}

/-- every entry was executed where `J` holds, and did what its call may do -/
def KeptTrace (J : σ → Prop) (R : O → σ → σ → Prop) (tr : List (Entry σ ε A O)) : Prop :=
  ∀ e ∈ tr, J e.before ∧ R e.op e.before e.after

theorem keeps_rule (hcode : ∀ o, (code o).Keeps J (R o) P) (hnature : ∀ n s, J s → J (nature n s)) :
    PoolRule code nature (fun _ => True) (fun s tr => J s ∧ KeptTrace J R tr)
      (fun _ _ r => r.rest.Keeps J (R r.op) P) where
  own s tr c r f next hI hr hrest := by
    have hkeeps : r.rest.Keeps J (R r.op) P := by
      rcases hr with ⟨o, -, rfl⟩ | hrun
      · exact hcode o
      · exact hrun
    rw [hrest] at hkeeps
    obtain ⟨⟨hJ, hR⟩, hnext⟩ := hkeeps s hI.1
    refine ⟨⟨hJ, ?_⟩, fun _ => hnext⟩
    unfold KeptTrace
    rw [List.forall_mem_append, List.forall_mem_singleton]
    exact ⟨hI.2, hI.1, hR⟩
  others s tr c r f next r' hI hr hrest hr' := hr'
  natural s tr n hI := ⟨⟨hnature n s hI.1, hI.2⟩, fun r hr => hr⟩

/-- **Calls that keep an invariant**, in any interleaving. -/
theorem pool_keeps (hcode : ∀ o, (code o).Keeps J (R o) P) (hnature : ∀ n s, J s → J (nature n s)) {s : σ} (hs : J s)
    (evs : List (PoolEvent O N)) :
    J ((Pool.init s).run code nature evs).mem ∧ KeptTrace J R ((Pool.init s).run code nature evs).trace :=
  (pool_inv (keeps_rule hcode hnature) (poolInv_init ⟨hs, fun e he => by cases he⟩) fun _ _ _ => trivial).shared

end Pool

end GigMarketplace.Core
