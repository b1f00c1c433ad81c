/-
What a call ensures when nature may act before each of its statements.

`c.Ensures nature Q s`: started at `s`, the call ends, and whatever nature does between its statements, what it returns
or raises and the state it leaves satisfy `Q`. Other calls do not run in between; `Core/Keeps.lean` has the rules for
those.

Results: one rule for each way of building code (`ensures_bind`, `ensures_act` and the others), the rule of consequence
(`Ensures.mono`), and that the run with nothing in between is one of the runs (`Ensures.run`).
-/
import GigMarketplace.Core.Threads

namespace GigMarketplace.Core.Code

variable {σ ε A B N : Type} (nature : N → σ → σ)

def Ensures (Q : Except ε A → σ → Prop) : Code σ ε A → σ → Prop
  | ret a, s => Q (.ok a) s
  | raise e, s => Q (.error e) s
  | stmt f next, s => ∀ n, (next (nature n s)).Ensures Q (f (nature n s))

/-- what the first part of a composed code has to ensure -/
def Before (k : A → Code σ ε B) (Q : Except ε B → σ → Prop) : Except ε A → σ → Prop
  | .ok a, s => (k a).Ensures nature Q s
  | .error e, s => Q (.error e) s

section Rules

variable {nature} {s : σ}

@[simp] theorem before_ok {k : A → Code σ ε B} {Q : Except ε B → σ → Prop} {a : A} :
    Before nature k Q (.ok a) s ↔ (k a).Ensures nature Q s := Iff.rfl

@[simp] theorem before_error {k : A → Code σ ε B} {Q : Except ε B → σ → Prop} {e : ε} :
    Before nature k Q (.error e) s ↔ Q (.error e) s := Iff.rfl

theorem Ensures.mono {Q Q' : Except ε A → σ → Prop} {c : Code σ ε A} (h : c.Ensures nature Q s)
    (hQ : ∀ x s', Q x s' → Q' x s') : c.Ensures nature Q' s := by
  induction c generalizing s with
  | ret a => exact hQ _ _ h
  | raise e => exact hQ _ _ h
  | stmt f next ih => exact fun n => ih (nature n s) (h n)

theorem ensures_bind {c : Code σ ε A} {k : A → Code σ ε B} {Q : Except ε B → σ → Prop} :
    (c >>= k).Ensures nature Q s ↔ c.Ensures nature (Before nature k Q) s := by
  induction c generalizing s with
  | ret a => exact Iff.rfl
  | raise e => exact Iff.rfl
  | stmt f next ih => exact forall_congr' fun n => ih (nature n s)

theorem ensures_raiseIf {c : Prop} [Decidable c] {e : ε} {Q : Except ε Unit → σ → Prop} :
    (raiseIf c e : Code σ ε Unit).Ensures nature Q s ↔ (c → Q (.error e) s) ∧ (¬ c → Q (.ok ()) s) := by
  by_cases h : c
  · rw [raiseIf_pos h]
    exact ⟨fun hq => ⟨fun _ => hq, fun hn => absurd h hn⟩, fun hq => hq.1 h⟩
  · rw [raiseIf_neg h]
    exact ⟨fun hq => ⟨fun hc => absurd hc h, fun _ => hq⟩, fun hq => hq.2 h⟩

theorem ensures_ofExcept {x : Except ε A} {Q : Except ε A → σ → Prop} :
    (ofExcept x : Code σ ε A).Ensures nature Q s ↔ Q x s := by
  cases x <;> exact Iff.rfl

theorem ensures_query {q : σ → Except ε A} {Q : Except ε A → σ → Prop} :
    (query q).Ensures nature Q s ↔ ∀ n, Q (q (nature n s)) (nature n s) :=
  forall_congr' fun _ => ensures_ofExcept

theorem ensures_act {f : σ → Except ε (A × σ)} {Q : Except ε A → σ → Prop} :
    (act f).Ensures nature Q s ↔ ∀ n, (∀ x, f (nature n s) = .ok x → Q (.ok x.1) x.2) ∧
      ∀ e, f (nature n s) = .error e → Q (.error e) (nature n s) := by
  refine forall_congr' fun n => ensures_ofExcept.trans ?_
  unfold effect
  cases h : f (nature n s) with
  | ok x =>
    refine ⟨fun hq => ⟨fun y hy => ?_, fun e he => by cases he⟩, fun hq => hq.1 x rfl⟩
    cases hy
    exact hq
  | error e =>
    refine ⟨fun hq => ⟨fun y hy => (by cases hy), fun e' he => ?_⟩, fun hq => hq.2 e rfl⟩
    cases he
    exact hq

/-- with an idle nature the call runs alone -/
theorem Ensures.run {c : Code σ ε A} {Q : Except ε A → σ → Prop} (h : c.Ensures nature Q s) (idle : N)
    (hidle : ∀ s, nature idle s = s) : Q (c.run s).1 (c.run s).2 := by
  induction c generalizing s with
  | ret a => exact h
  | raise e => exact h
  | stmt f next ih =>
    have hstep := h idle
    rw [hidle] at hstep
    exact ih s hstep

end Rules

end GigMarketplace.Core.Code
