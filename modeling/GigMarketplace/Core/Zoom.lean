/-
Calls of a component inside a larger state (`Core/Threads.lean`).

A component that was verified by itself runs as it is where its state is one part of a larger one: every statement works
on that part and leaves the rest. What its calls assure (`Core/Rely.lean`) they assure there as well, and beside it
anything about the whole state that nobody takes back.

Results:
- `Assures.zoom`, `AssuresFrom.zoom`: the triple of a component as a triple of the whole.
-/
import GigMarketplace.Core.Rely

namespace GigMarketplace.Core

variable {σ τ ε ε' A : Type}

/-- one part of a state -/
structure Part (τ σ : Type) where
  get : τ → σ
  set : σ → τ → τ
  get_set : ∀ s t, get (set s t) = s

namespace Code

/-- the statements work on the part; what the code raises is a failure of the whole -/
def zoom (p : Part τ σ) (wrap : ε → ε') : Code σ ε A → Code τ ε' A
  | ret a => ret a
  | raise e => raise (wrap e)
  | stmt f next => stmt (fun t => p.set (f (p.get t)) t) fun t => (next (p.get t)).zoom p wrap

/-- **A component's triple.** `J`, `R` and `G` are those of the component, `J'`, `R'` and `G'` those of the whole; `F` is
what is known beside them, and what the whole lets happen does not take back. -/
theorem Assures.zoom (p : Part τ σ) (wrap : ε → ε') {J : σ → Prop} {R G : σ → σ → Prop} {Q : A → σ → Prop}
    {J' F : τ → Prop} {R' G' : τ → τ → Prop} (hJ : ∀ t, J' t → J (p.get t))
    (hR : ∀ t t', R' t t' → R (p.get t) (p.get t')) (hF : ∀ t t', F t → R' t t' → F t')
    (hset : ∀ t s, J' t → F t → J s → G (p.get t) s → J' (p.set s t) ∧ G' t (p.set s t))
    (hG : ∀ t t', G' t t' → R' t t') {c : Code σ ε A} {t : τ} (hknown : F t) (h : c.Assures J R G Q (p.get t)) :
    (c.zoom p wrap).Assures J' R' G' (fun a t => Q a (p.get t) ∧ F t) t := by
  induction c generalizing t with
  | ret a => exact ⟨h, hknown⟩
  | raise e => trivial
  | stmt f next ih =>
    intro t' hR' hJ'
    have hknown' : F t' := hF t t' hknown hR'
    obtain ⟨⟨hs, hstep⟩, hnext⟩ := h (p.get t') (hR t t' hR') (hJ t' hJ')
    obtain ⟨hkept, hmoved⟩ := hset t' (f (p.get t')) hJ' hknown' hs hstep
    refine ⟨⟨hkept, hmoved⟩, ih (p.get t') (hF t' _ hknown' (hG _ _ hmoved)) ?_⟩
    rw [p.get_set]
    exact hnext

/-- the same of a call that starts with the component -/
theorem AssuresFrom.zoom (p : Part τ σ) (wrap : ε → ε') {J : σ → Prop} {R G : σ → σ → Prop} {Q : A → σ → Prop}
    {J' : τ → Prop} {R' G' : τ → τ → Prop} (hJ : ∀ t, J' t → J (p.get t))
    (hR : ∀ t t', R' t t' → R (p.get t) (p.get t'))
    (hset : ∀ t s, J' t → J s → G (p.get t) s → J' (p.set s t) ∧ G' t (p.set s t))
    (hG : ∀ t t', G' t t' → R' t t') {c : Code σ ε A} {t : τ} (ht : J' t) (h : c.AssuresFrom J R G Q (p.get t)) :
    (c.zoom p wrap).AssuresFrom J' R' G' (fun a t => Q a (p.get t)) t := by
  cases c with
  | ret a => exact h
  | raise e => trivial
  | stmt f next =>
    obtain ⟨⟨hs, hstep⟩, hnext⟩ := h
    refine ⟨hset t (f (p.get t)) ht hs hstep, ?_⟩
    rw [← p.get_set (f (p.get t)) t] at hnext
    exact (hnext.zoom p wrap (F := fun _ => True) hJ hR (fun _ _ _ _ => trivial) (fun t s h _ => hset t s h) hG
      trivial).post fun _ _ h => h.1

end Code

end GigMarketplace.Core
