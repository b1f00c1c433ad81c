/-
Calls of one kind that do not overlap, among other calls that run at any time (`Core/Threads.lean`).

`Apart` is a condition on a run: when a call of the kind `X` starts, none is under way, and `Start` holds of the state
and the trace. Under it the shared state goes through phases: `Idle` while no call of the kind runs, and `Stage` of the
one that runs. Other calls are known by what their statements do (`R`).

Results:
- `apart_run`, the invariant rule for such runs;
- `meets_apart`: in a run whose callers are known, only these have to be asked, so the condition can be evaluated.

Nothing here names a program.
-/
import GigMarketplace.Core.Threads

namespace GigMarketplace.Core

variable {σ ε A O N : Type}

/-- `C` is met before each event of the run -/
def Pool.Meets (code : O → Code σ ε A) (nature : N → σ → σ) (C : Pool σ ε A O → PoolEvent O N → Prop) :
    Pool σ ε A O → List (PoolEvent O N) → Prop
  | _, [] => True
  | p, ev :: evs => C p ev ∧ Pool.Meets code nature C (p.step code nature ev) evs

/-- no call of the kind `X` is under way when another one starts, and `Start` holds -/
def Apart (X : O → Prop) (Start : σ → List (Entry σ ε A O) → O → Prop) (p : Pool σ ε A O) : PoolEvent O N → Prop
  | .start c o => X o → p.running c = none → (∀ c' r, p.running c' = some r → ¬ X r.op) ∧ Start p.mem p.trace o
  | _ => True

section Rule

variable (code : O → Code σ ε A) (nature : N → σ → σ) (X : O → Prop) (Start : σ → List (Entry σ ε A O) → O → Prop)
  (R : σ → σ → Prop) (Idle : σ → List (Entry σ ε A O) → Prop)
  (Stage : σ → List (Entry σ ε A O) → Running σ ε A O → Prop)

/-- what has to be shown: the statements of the other calls are in `R`, which keeps both phases, as nature does; and a
statement of a call of the kind leads from one phase to the next -/
structure ApartRule : Prop where
  others : ∀ o, ¬ X o → (code o).Each R
  idle_frame : ∀ s s' tr e, R s s' → ¬ X e.op → Idle s tr → Idle s' (tr ++ [e])
  stage_frame : ∀ s s' tr e r, R s s' → ¬ X e.op → Stage s tr r → Stage s' (tr ++ [e]) r
  natural : ∀ s tr n, (Idle s tr → Idle (nature n s) tr) ∧ ∀ r, Stage s tr r → Stage (nature n s) tr r
  own : ∀ s tr c r f next, X r.op → Ready code (fun o => Idle s tr ∧ Start s tr o) Stage s tr r →
    r.rest = .stmt f next →
    ((next s).result = none → Stage (f s) (tr ++ [r.entry c tr.length s f (next s)]) { r with rest := next s }) ∧
      ((next s).result ≠ none → Idle (f s) (tr ++ [r.entry c tr.length s f (next s)]))

/-- at most one call of the kind runs, and the shared state is in its phase -/
structure ApartInv (p : Pool σ ε A O) : Prop where
  others : ∀ c r, p.running c = some r → ¬ X r.op → r.rest.Each R
  one : ∀ c r c' r', p.running c = some r → p.running c' = some r' → X r.op → X r'.op → c = c'
  idle : (∀ c r, p.running c = some r → ¬ X r.op) → Idle p.mem p.trace
  stage : ∀ c r, p.running c = some r → X r.op → Stage p.mem p.trace r
  active : ∀ c r, p.running c = some r → r.rest.result = none

variable {code nature X Start R Idle Stage} {p : Pool σ ε A O} {c : ℕ} {r : Running σ ε A O}

/-- another call executes a statement -/
theorem ApartInv.exec_other (hrule : ApartRule code nature X Start R Idle Stage) (h : ApartInv X R Idle Stage p)
    (hX : ¬ X r.op) (heach : r.rest.Each R) (hactive : r.rest.result = none)
    (hc : ∀ r', p.running c = some r' → ¬ X r'.op) : ApartInv X R Idle Stage (p.exec c r) := by
  obtain ⟨f, next, hrest⟩ := Code.stmt_of_result hactive
  rw [hrest] at heach
  obtain ⟨hR, hnext⟩ := heach p.mem
  refine ⟨?_, ?_, ?_, ?_, ?_⟩
  · intro c' r' hr' hX'
    rcases Pool.exec_running hrest hr' with ⟨-, -, rfl⟩ | ⟨-, hold⟩
    · exact hnext
    · exact h.others c' r' hold hX'
  · intro c₁ r₁ c₂ r₂ h₁ h₂ hX₁ hX₂
    rcases Pool.exec_running hrest h₁ with ⟨-, -, rfl⟩ | ⟨-, hold₁⟩
    · exact absurd hX₁ hX
    · rcases Pool.exec_running hrest h₂ with ⟨-, -, rfl⟩ | ⟨-, hold₂⟩
      · exact absurd hX₂ hX
      · exact h.one c₁ r₁ c₂ r₂ hold₁ hold₂ hX₁ hX₂
  · intro hnone
    rw [Pool.exec_mem hrest, Pool.exec_trace hrest]
    refine hrule.idle_frame _ _ _ _ hR hX (h.idle ?_)
    intro c' r' hr'
    by_cases hcc : c' = c
    · subst hcc
      exact hc r' hr'
    · exact hnone c' r' ((Pool.exec_running_ne hrest hcc).trans hr')
  · intro c' r' hr' hX'
    rw [Pool.exec_mem hrest, Pool.exec_trace hrest]
    rcases Pool.exec_running hrest hr' with ⟨-, -, rfl⟩ | ⟨-, hold⟩
    · exact absurd hX' hX
    · exact hrule.stage_frame _ _ _ _ r' hR hX (h.stage c' r' hold hX')
  · intro c' r' hr'
    rcases Pool.exec_running hrest hr' with ⟨-, hres, rfl⟩ | ⟨-, hold⟩
    · exact hres
    · exact h.active c' r' hold

/-- the one call of the kind executes a statement -/
theorem ApartInv.exec_own (hrule : ApartRule code nature X Start R Idle Stage) (h : ApartInv X R Idle Stage p)
    (hX : X r.op) (hr : Ready code (fun o => Idle p.mem p.trace ∧ Start p.mem p.trace o) Stage p.mem p.trace r)
    (hactive : r.rest.result = none) (halone : ∀ c' r', c' ≠ c → p.running c' = some r' → ¬ X r'.op) :
    ApartInv X R Idle Stage (p.exec c r) := by
  obtain ⟨f, next, hrest⟩ := Code.stmt_of_result hactive
  obtain ⟨hstage, hidle⟩ := hrule.own p.mem p.trace c r f next hX hr hrest
  have hsingle : ∀ c' r', (p.exec c r).running c' = some r' → X r'.op → c' = c := by
    intro c' r' hr' hX'
    rcases Pool.exec_running hrest hr' with ⟨hc, -, -⟩ | ⟨hne, hold⟩
    · exact hc
    · exact absurd hX' (halone c' r' hne hold)
  refine ⟨?_, ?_, ?_, ?_, ?_⟩
  · intro c' r' hr' hX'
    rcases Pool.exec_running hrest hr' with ⟨-, -, rfl⟩ | ⟨-, hold⟩
    · exact absurd hX hX'
    · exact h.others c' r' hold hX'
  · intro c₁ r₁ c₂ r₂ h₁ h₂ hX₁ hX₂
    rw [hsingle c₁ r₁ h₁ hX₁, hsingle c₂ r₂ h₂ hX₂]
  · intro hnone
    rw [Pool.exec_mem hrest, Pool.exec_trace hrest]
    apply hidle
    intro hres
    -- otherwise the call would still be running
    have hrunning : (p.exec c r).running c = some { r with rest := next p.mem } := by
      simp [Pool.exec, hrest, hres]
    exact hnone c _ hrunning hX
  · intro c' r' hr' hX'
    rw [Pool.exec_mem hrest, Pool.exec_trace hrest]
    rcases Pool.exec_running hrest hr' with ⟨-, hres, rfl⟩ | ⟨hne, hold⟩
    · exact hstage hres
    · exact absurd hX' (halone c' r' hne hold)
  · intro c' r' hr'
    rcases Pool.exec_running hrest hr' with ⟨-, hres, rfl⟩ | ⟨-, hold⟩
    · exact hres
    · exact h.active c' r' hold

theorem ApartInv.step (hrule : ApartRule code nature X Start R Idle Stage) (h : ApartInv X R Idle Stage p)
    {ev : PoolEvent O N} (hev : Apart X Start p ev) : ApartInv X R Idle Stage (p.step code nature ev) := by
  cases ev with
  | start c o =>
    cases hc : p.running c with
    | some r =>
      simp only [Pool.step, hc]
      exact h
    | none =>
      simp only [Pool.step, hc]
      have hfree : ∀ r', p.running c = some r' → ¬ X r'.op := by
        intro r' hr'
        rw [hc] at hr'
        cases hr'
      cases hended : (code o).result with
      | some x =>
        -- a call without statements leaves at once
        have hsame : Function.update p.running c none = p.running := by rw [← hc, Function.update_eq_self]
        rw [Pool.exec_ended hended, hsame]
        exact h
      | none =>
        by_cases hX : X o
        · obtain ⟨hnone, hstart⟩ := hev hX hc
          refine h.exec_own hrule hX (Or.inl ⟨o, ⟨h.idle hnone, hstart⟩, rfl⟩) hended ?_
          intro c' r' _ hr'
          exact hnone c' r' hr'
        · exact h.exec_other hrule hX (hrule.others o hX) hended hfree
  | step c =>
    cases hc : p.running c with
    | none =>
      simp only [Pool.step, hc]
      exact h
    | some r =>
      simp only [Pool.step, hc]
      by_cases hX : X r.op
      · refine h.exec_own hrule hX (Or.inr (h.stage c r hc hX)) (h.active c r hc) ?_
        intro c' r' hne hr' hX'
        exact hne (h.one c' r' c r hr' hc hX' hX)
      · refine h.exec_other hrule hX (h.others c r hc hX) (h.active c r hc) ?_
        intro r' hr'
        rw [hc] at hr'
        cases hr'
        exact hX
  | nature n =>
    refine ⟨h.others, h.one, ?_, ?_, h.active⟩
    · intro hnone
      exact (hrule.natural p.mem p.trace n).1 (h.idle hnone)
    · intro c r hr hX
      exact (hrule.natural p.mem p.trace n).2 r (h.stage c r hr hX)

/-- **The rule** for calls that do not overlap. -/
theorem apart_run (hrule : ApartRule code nature X Start R Idle Stage) {evs : List (PoolEvent O N)}
    (h : ApartInv X R Idle Stage p) (hevs : p.Meets code nature (Apart X Start) evs) :
    ApartInv X R Idle Stage (p.run code nature evs) := by
  induction evs generalizing p with
  | nil => exact h
  | cons ev evs ih => exact ih (h.step hrule hevs.1) hevs.2

theorem apartInv_init {s : σ} (h : Idle s []) : ApartInv X R Idle Stage (Pool.init s : Pool σ ε A O) := by
  have hnone : ∀ c r, ¬ (Pool.init s : Pool σ ε A O).running c = some r := by
    intro c r hr
    cases hr
  refine ⟨?_, ?_, fun _ => h, ?_, ?_⟩
  · intro c r hr
    exact absurd hr (hnone c r)
  · intro c r c' r' hr
    exact absurd hr (hnone c r)
  · intro c r hr
    exact absurd hr (hnone c r)
  · intro c r hr
    exact absurd hr (hnone c r)

end Rule

/-! ## Evaluation -/

section Evaluation

variable {code : O → Code σ ε A} {nature : N → σ → σ} {X : O → Prop} {Start : σ → List (Entry σ ε A O) → O → Prop}
  {p : Pool σ ε A O} {cs : List ℕ}

instance decidableMeets (code : O → Code σ ε A) (nature : N → σ → σ) (C : Pool σ ε A O → PoolEvent O N → Prop)
    [∀ p ev, Decidable (C p ev)] :
    (p : Pool σ ε A O) → (evs : List (PoolEvent O N)) → Decidable (p.Meets code nature C evs)
  | _, [] => isTrue trivial
  | p, ev :: evs =>
    have := decidableMeets code nature C (p.step code nature ev) evs
    inferInstanceAs (Decidable (C p ev ∧ (p.step code nature ev).Meets code nature C evs))

/-- `Apart`, with the callers in a list -/
def ApartAmong (cs : List ℕ) (X : O → Prop) (Start : σ → List (Entry σ ε A O) → O → Prop) (p : Pool σ ε A O) :
    PoolEvent O N → Prop
  | .start c o => c ∈ cs ∧
    (X o → p.running c = none → (∀ c' ∈ cs, ∀ r ∈ p.running c', ¬ X r.op) ∧ Start p.mem p.trace o)
  | _ => True

instance decidableApartAmong (cs : List ℕ) [DecidablePred X] [∀ s tr o, Decidable (Start s tr o)]
    (p : Pool σ ε A O) : (ev : PoolEvent O N) → Decidable (ApartAmong cs X Start p ev)
  | .start c o => inferInstanceAs (Decidable (c ∈ cs ∧
      (X o → p.running c = none → (∀ c' ∈ cs, ∀ r ∈ p.running c', ¬ X r.op) ∧ Start p.mem p.trace o)))
  | .step _ => isTrue trivial
  | .nature _ => isTrue trivial

/-- a step brings in no other caller than the one that starts -/
theorem running_step {ev : PoolEvent O N} (hp : ∀ c r, p.running c = some r → c ∈ cs)
    (hev : ApartAmong cs X Start p ev) {c : ℕ} {r : Running σ ε A O}
    (hr : (p.step code nature ev).running c = some r) : c ∈ cs := by
  have hexec : ∀ c₀ r₀, c₀ ∈ cs → (p.exec c₀ r₀).running c = some r → c ∈ cs := by
    intro c₀ r₀ hc₀ hr₀
    by_cases hc : c = c₀
    · rw [hc]
      exact hc₀
    · apply hp c r
      unfold Pool.exec at hr₀
      split at hr₀
      · simpa only [Function.update_of_ne hc] using hr₀
      · simpa only [Function.update_of_ne hc] using hr₀
  cases ev with
  | start c₀ o =>
    cases hc₀ : p.running c₀ with
    | none =>
      simp only [Pool.step, hc₀] at hr
      exact hexec c₀ _ hev.1 hr
    | some r₀ =>
      simp only [Pool.step, hc₀] at hr
      exact hp c r hr
  | step c₀ =>
    cases hc₀ : p.running c₀ with
    | none =>
      simp only [Pool.step, hc₀] at hr
      exact hp c r hr
    | some r₀ =>
      simp only [Pool.step, hc₀] at hr
      exact hexec c₀ r₀ (hp c₀ r₀ hc₀) hr
  | nature n => exact hp c r hr

theorem meets_apart_of_running (evs : List (PoolEvent O N)) (hp : ∀ c r, p.running c = some r → c ∈ cs)
    (h : p.Meets code nature (ApartAmong cs X Start) evs) : p.Meets code nature (Apart X Start) evs := by
  induction evs generalizing p with
  | nil => trivial
  | cons ev evs ih =>
    obtain ⟨hev, hevs⟩ := h
    refine ⟨?_, ih (fun c r hr => running_step hp hev hr) hevs⟩
    cases ev with
    | start c o =>
      intro hX hc
      obtain ⟨halone, hstart⟩ := hev.2 hX hc
      exact ⟨fun c' r hr => halone c' (hp c' r hr) r hr, hstart⟩
    | step c => trivial
    | nature n => trivial

/-- **Only the callers in the list** have to be asked. -/
theorem meets_apart (cs : List ℕ) {s : σ} {evs : List (PoolEvent O N)}
    (h : (Pool.init s).Meets code nature (ApartAmong cs X Start) evs) :
    (Pool.init s).Meets code nature (Apart X Start) evs := by
  apply meets_apart_of_running evs _ h
  intro c r hr
  cases hr

end Evaluation

end GigMarketplace.Core
