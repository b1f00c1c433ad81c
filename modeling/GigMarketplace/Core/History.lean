/-
Histories: what a sequence of atomic transactions preserves, and what that says of interleaved ones.

A database state is reached in two ways: by atomic calls one after another, of which a failed one leaves the state as
it was (`call`), and as the committed database of a `Machine`, which by `serializable` is a `Serial` history of
successful transactions. The rules below are stated for both.

Results:
- `call_inv`, `Serial.inv`: what every successful transaction preserves holds at the end;
- `Serial.sticky`: what one transaction of a history establishes and the others preserve holds at the end;
- `Serial.once`: a kind of transaction that establishes a stable fact and cannot run under that fact occurs at most
  once in a history;
- `Serial.at`: the state in which a transaction of a history ran;
- `serializable_from`: between two points of one run of the machine lies a history of its own.
-/
import GigMarketplace.Core.RowLock
import Mathlib.Data.List.Count

namespace GigMarketplace.Core

variable {S : Schema} {D A O : Type} (st : Store S D) (prog : O → Prog S A)

/-! ## Atomic calls -/

/-- an atomic call: a failed one leaves the database as it was -/
def call (d : D) (o : O) : D :=
  match exec st (prog o) d with
  | .ok (_, d') => d'
  | .error _ => d

theorem Serial.eq_foldl {d d' : D} {os : List O} (h : Serial st prog d os d') : d' = os.foldl (call st prog) d := by
  induction os generalizing d with
  | nil => exact h
  | cons o os ih =>
    obtain ⟨a, d₁, ho, hs⟩ := h
    rw [ih hs, List.foldl_cons]
    rw [call, show exec st (prog o) d = .ok (a, d₁) from ho]

/-- a history splits at any point -/
theorem Serial.append {d d' : D} {os os' : List O} (h : Serial st prog d (os ++ os') d') :
    ∃ d₁, Serial st prog d os d₁ ∧ Serial st prog d₁ os' d' := by
  induction os generalizing d with
  | nil => exact ⟨d, rfl, h⟩
  | cons o os ih =>
    obtain ⟨a, d₁, ho, hs⟩ := h
    obtain ⟨d₂, h1, h2⟩ := ih hs
    exact ⟨d₂, ⟨a, d₁, ho, h1⟩, h2⟩

/-- what a call did: a successful transaction, or nothing -/
theorem call_cases (d : D) (o : O) :
    (∃ a, Runs st (prog o) d a (call st prog d o)) ∨ call st prog d o = d := by
  unfold call Runs
  cases exec st (prog o) d with
  | ok x => exact Or.inl ⟨x.1, rfl⟩
  | error e => exact Or.inr rfl

/-! ## Rules -/

section Rules

variable {st} {prog}

/-- **The invariant rule for runs of calls.** -/
theorem call_inv {P : D → Prop} (hs : ∀ d o a d', P d → Runs st (prog o) d a d' → P d') {d : D} (h : P d)
    (os : List O) : P (os.foldl (call st prog) d) := by
  induction os generalizing d with
  | nil => exact h
  | cons o os ih =>
    refine ih ?_
    rcases call_cases st prog d o with ⟨a, ha⟩ | he
    · exact hs d o a _ h ha
    · rw [he]; exact h

/-- **The invariant rule for histories.** -/
theorem Serial.inv {P : D → Prop} (hs : ∀ d o a d', P d → Runs st (prog o) d a d' → P d') {d d' : D} {os : List O}
    (h : P d) (hh : Serial st prog d os d') : P d' := by
  rw [hh.eq_foldl]
  exact call_inv hs h os

/-- **A transaction's lasting effect.** -/
theorem Serial.sticky {P : D → Prop} {o : O} (hset : ∀ d a d', Runs st (prog o) d a d' → P d')
    (hs : ∀ d o' a d', P d → Runs st (prog o') d a d' → P d') {d d' : D} {os : List O} (ho : o ∈ os)
    (hh : Serial st prog d os d') : P d' := by
  obtain ⟨l, l', rfl⟩ := List.append_of_mem ho
  obtain ⟨d₁, -, a, d₂, hr, h2⟩ := Serial.append st prog hh
  exact Serial.inv hs (hset d₁ a d₂ hr) h2

/-- in a state that excludes it, a kind of transaction does not occur in any history -/
theorem Serial.never {P : D → Prop} {q : O → Bool} (hs : ∀ d o a d', P d → Runs st (prog o) d a d' → P d')
    (hex : ∀ d o a d', P d → Runs st (prog o) d a d' → q o = false) {d d' : D} {os : List O} (h : P d)
    (hh : Serial st prog d os d') : os.countP q = 0 := by
  induction os generalizing d with
  | nil => rfl
  | cons o os ih =>
    obtain ⟨a, d₁, ho, hh⟩ := hh
    rw [List.countP_cons_of_neg (by rw [hex d o a d₁ h ho]; simp)]
    exact ih (hs d o a d₁ h ho) hh

/-- **At most once.** `P` is the fact that a transaction of the kind `q` leaves behind and that keeps the next one
from succeeding. -/
theorem Serial.once {P : D → Prop} {q : O → Bool} (hs : ∀ d o a d', P d → Runs st (prog o) d a d' → P d')
    (hset : ∀ d o a d', q o = true → Runs st (prog o) d a d' → P d')
    (hex : ∀ d o a d', P d → Runs st (prog o) d a d' → q o = false) {d d' : D} {os : List O}
    (hh : Serial st prog d os d') : os.countP q ≤ 1 := by
  induction os generalizing d with
  | nil => simp
  | cons o os ih =>
    obtain ⟨a, d₁, ho, hh⟩ := hh
    rw [List.countP_cons]
    cases hq : q o with
    | false => simpa using ih hh
    | true =>
      have h0 := Serial.never hs hex (hset d o a d₁ hq ho) hh
      simp [h0]

/-- **The state a transaction saw**: the one left by the transactions before it. -/
theorem Serial.at {d d' : D} {os os' : List O} {o : O} (hh : Serial st prog d (os ++ o :: os') d') :
    ∃ a d₂, Runs st (prog o) (os.foldl (call st prog) d) a d₂ := by
  obtain ⟨d₁, h1, a, d₂, ho, -⟩ := Serial.append st prog hh
  exact ⟨a, d₂, h1.eq_foldl ▸ ho⟩

end Rules

/-! ## Between two points of a run -/

section Between

variable [DecidableEq S.Key]

theorem step_history (c : Conf S D A O) (ev : Event O) : c.history <+: (Machine.step st prog c ev).history := by
  have hgo : ∀ t a (p : Prog S A), c.history <+: (c.goOn t a p).history := fun _ _ _ => List.prefix_refl _
  cases ev with
  | start t o => simp only [Machine.step]; split <;> exact List.prefix_refl _
  | kill t => exact List.prefix_refl _
  | step t =>
    simp only [Machine.step]
    split
    · exact List.prefix_refl _
    · rename_i a ha
      unfold Conf.advance
      cases a.rest with
      | done x => exact List.prefix_append _ _
      | lock k busy pick miss next =>
        simp only
        repeat' (first | split | split_ifs)
        all_goals exact List.prefix_refl _
      | update k f next => simp only; split_ifs <;> exact List.prefix_refl _
      | insert k r dup next => simp only; split_ifs <;> exact List.prefix_refl _
      | _ => exact List.prefix_refl _

/-- the committed transactions of a run are those of any earlier point, and then more -/
theorem run_history (c : Conf S D A O) (evs : List (Event O)) : c.history <+: (Machine.run st prog c evs).history := by
  induction evs generalizing c with
  | nil => exact List.prefix_refl _
  | cons ev evs ih => exact (step_history st prog c ev).trans (ih _)

/-- A later committed database is reached from an earlier one by the transactions committed in between. -/
theorem serializable_from (d : D) (evs evs' : List (Event O)) :
    ∃ os, (Machine.run st prog (Conf.init S A O d) (evs ++ evs')).history =
        (Machine.run st prog (Conf.init S A O d) evs).history ++ os ∧
      Serial st prog (Machine.run st prog (Conf.init S A O d) evs).db os
        (Machine.run st prog (Conf.init S A O d) (evs ++ evs')).db := by
  have hrun : Machine.run st prog (Conf.init S A O d) (evs ++ evs') =
      Machine.run st prog (Machine.run st prog (Conf.init S A O d) evs) evs' := by
    simp [Machine.run, List.foldl_append]
  obtain ⟨os, hos⟩ := run_history st prog (Machine.run st prog (Conf.init S A O d) evs) evs'
  rw [← hrun] at hos
  refine ⟨os, hos.symm, ?_⟩
  have hs := serializable st prog d (evs ++ evs')
  rw [← hos] at hs
  obtain ⟨d₁, h1, h2⟩ := Serial.append st prog hs
  rw [(serializable st prog d evs).eq_foldl, ← h1.eq_foldl]
  exact h2

/-- **The invariant rule for interleaved transactions.** -/
theorem machine_inv {P : D → Prop} (hs : ∀ d o a d', P d → Runs st (prog o) d a d' → P d') {d : D} (h : P d)
    (evs : List (Event O)) : P (Machine.run st prog (Conf.init S A O d) evs).db :=
  Serial.inv hs h (serializable st prog d evs)

end Between

end GigMarketplace.Core
