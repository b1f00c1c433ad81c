/-
Running calls told apart by where they began (`Core/Threads.lean`), in runs with a condition on where a call may start.

The position of its first entry names a call: no two running calls share it. The invariant rule here adds to the one of
`Core/Threads.lean` what that gives, namely that another call's statement carries another position, and it takes a
condition `Start` on the state and the trace that every call meets when it starts.

Results:
- `calls_inv`: the invariant rule;
- `CallRule.ordered`: where every statement and nature move the state along a preorder, the states of a run stand in the
  order of their positions (`OrderedTrace`);
- `length_le_of_begun`: entries of different calls are no more than the first entries of those calls.
-/
import GigMarketplace.Core.Apart
import Mathlib.Data.List.Perm.Subperm

namespace GigMarketplace.Core

variable {σ ε A O N : Type}

/-- every call meets `Start` when it starts -/
def Starts (Start : σ → List (Entry σ ε A O) → O → Prop) (p : Pool σ ε A O) : PoolEvent O N → Prop
  | .start c o => p.running c = none → Start p.mem p.trace o
  | _ => True

instance decidableStarts {Start : σ → List (Entry σ ε A O) → O → Prop} [∀ s tr o, Decidable (Start s tr o)]
    (p : Pool σ ε A O) : (ev : PoolEvent O N) → Decidable (Starts Start p ev)
  | .start c o => inferInstanceAs (Decidable (p.running c = none → Start p.mem p.trace o))
  | .step _ => isTrue trivial
  | .nature _ => isTrue trivial

section Rule

variable (code : O → Code σ ε A) (nature : N → σ → σ) (Start : σ → List (Entry σ ε A O) → O → Prop)
  (I : σ → List (Entry σ ε A O) → Prop) (K : σ → List (Entry σ ε A O) → Running σ ε A O → Prop)

/-- the call began before -/
def Begun (s : σ) (tr : List (Entry σ ε A O)) (r : Running σ ε A O) : Prop := r.begun < tr.length ∧ K s tr r

/-- what has to be shown; a statement of another call is one of a call that began elsewhere -/
structure CallRule : Prop where
  own : ∀ s tr c r f next, I s tr → Ready code (Start s tr) (Begun K) s tr r → r.rest = .stmt f next →
    r.Advances I K c s tr f next
  others : ∀ s tr c r f next r', I s tr → Ready code (Start s tr) (Begun K) s tr r → r.rest = .stmt f next →
    K s tr r' → r'.begun ≠ r.begun → K (f s) (tr ++ [r.entry c tr.length s f (next s)]) r'
  natural : ∀ s tr n, I s tr → I (nature n s) tr ∧ ∀ r, K s tr r → K (nature n s) tr r

/-- the two parts hold, and the running calls began at different positions of the trace -/
structure CallInv (p : Pool σ ε A O) : Prop where
  inv : PoolInv I K p
  begun : ∀ c r, p.running c = some r → r.begun < p.trace.length
  apart : ∀ c r c' r', p.running c = some r → p.running c' = some r' → r.begun = r'.begun → c = c'

variable {code nature Start I K} {p : Pool σ ε A O} {c : ℕ} {r : Running σ ε A O}

/-- the call `c` executes a statement; no other running call began where it did -/
theorem CallInv.exec (hrule : CallRule code nature Start I K) (h : CallInv I K p)
    (hne : ∀ c' r', c' ≠ c → p.running c' = some r' → r'.begun ≠ r.begun)
    (hr : Ready code (Start p.mem p.trace) (Begun K) p.mem p.trace r) : CallInv I K (p.exec c r) := by
  have hbegun : r.begun ≤ p.trace.length := by
    rcases hr with ⟨o, -, rfl⟩ | ⟨hlt, -⟩
    · exact Nat.le_refl _
    · exact Nat.le_of_lt hlt
  cases hended : r.rest.result with
  | some x =>
    rw [Pool.exec_ended hended]
    have hold : ∀ c' r', Function.update p.running c none c' = some r' → p.running c' = some r' := by
      intro c' r' hr'
      by_cases hc : c' = c
      · subst hc
        simp at hr'
      · rwa [Function.update_of_ne hc] at hr'
    refine ⟨⟨h.inv.shared, ?_⟩, ?_, ?_⟩
    · intro c' r' hr'
      exact h.inv.calls c' r' (hold c' r' hr')
    · intro c' r' hr'
      exact h.begun c' r' (hold c' r' hr')
    · intro c₁ r₁ c₂ r₂ h₁ h₂
      exact h.apart c₁ r₁ c₂ r₂ (hold c₁ r₁ h₁) (hold c₂ r₂ h₂)
  | none =>
    obtain ⟨f, next, hrest⟩ := Code.stmt_of_result hended
    obtain ⟨hshared, hown⟩ := hrule.own p.mem p.trace c r f next h.inv.shared hr hrest
    refine ⟨⟨?_, ?_⟩, ?_, ?_⟩
    · rw [Pool.exec_mem hrest, Pool.exec_trace hrest]
      exact hshared
    · intro c' r' hr'
      rw [Pool.exec_mem hrest, Pool.exec_trace hrest]
      rcases Pool.exec_running hrest hr' with ⟨-, hres, rfl⟩ | ⟨hc, hold⟩
      · exact hown hres
      · exact hrule.others p.mem p.trace c r f next r' h.inv.shared hr hrest (h.inv.calls c' r' hold) (hne c' r' hc hold)
    · intro c' r' hr'
      rw [Pool.exec_trace hrest, List.length_append, List.length_singleton]
      rcases Pool.exec_running hrest hr' with ⟨-, -, rfl⟩ | ⟨-, hold⟩
      · exact Nat.lt_succ_of_le hbegun
      · exact Nat.lt_succ_of_lt (h.begun c' r' hold)
    · intro c₁ r₁ c₂ r₂ h₁ h₂ heq
      rcases Pool.exec_running hrest h₁ with ⟨hc₁, -, rfl⟩ | ⟨hc₁, hold₁⟩
      · rcases Pool.exec_running hrest h₂ with ⟨hc₂, -, -⟩ | ⟨hc₂, hold₂⟩
        · rw [hc₁, hc₂]
        · exact absurd heq.symm (hne c₂ r₂ hc₂ hold₂)
      · rcases Pool.exec_running hrest h₂ with ⟨-, -, rfl⟩ | ⟨-, hold₂⟩
        · exact absurd heq (hne c₁ r₁ hc₁ hold₁)
        · exact h.apart c₁ r₁ c₂ r₂ hold₁ hold₂ heq

theorem CallInv.step (hrule : CallRule code nature Start I K) (h : CallInv I K p) {ev : PoolEvent O N}
    (hev : Starts Start p ev) : CallInv I K (p.step code nature ev) := by
  cases ev with
  | start c o =>
    cases hc : p.running c with
    | some r =>
      simp only [Pool.step, hc]
      exact h
    | none =>
      simp only [Pool.step, hc]
      apply h.exec hrule
      · intro c' r' _ hr'
        exact Nat.ne_of_lt (h.begun c' r' hr')
      · exact Or.inl ⟨o, hev hc, rfl⟩
  | step c =>
    cases hc : p.running c with
    | none =>
      simp only [Pool.step, hc]
      exact h
    | some r =>
      simp only [Pool.step, hc]
      apply h.exec hrule
      · intro c' r' hne hr' heq
        exact hne (h.apart c' r' c r hr' hc heq)
      · exact Or.inr ⟨h.begun c r hc, h.inv.calls c r hc⟩
  | nature n =>
    obtain ⟨h1, h2⟩ := hrule.natural p.mem p.trace n h.inv.shared
    exact ⟨⟨h1, fun c r hr => h2 r (h.inv.calls c r hr)⟩, h.begun, h.apart⟩

/-- **The invariant rule** for calls told apart by where they began. -/
theorem calls_inv (hrule : CallRule code nature Start I K) {evs : List (PoolEvent O N)} (h : CallInv I K p)
    (hevs : p.Meets code nature (Starts Start) evs) : CallInv I K (p.run code nature evs) := by
  induction evs generalizing p with
  | nil => exact h
  | cons ev evs ih => exact ih (h.step hrule hevs.1) hevs.2

theorem callInv_init {s : σ} (h : I s []) : CallInv I K (Pool.init s : Pool σ ε A O) := by
  refine ⟨poolInv_init h, ?_, ?_⟩
  · intro c r hr
    cases hr
  · intro c r c' r' hr
    cases hr

/-- a condition that the operations of the run's events meet wherever they start -/
theorem meets_starts {P : O → Prop} {evs : List (PoolEvent O N)} (h : ∀ c o, .start c o ∈ evs → P o)
    (p : Pool σ ε A O) : p.Meets code nature (Starts fun _ _ o => P o) evs := by
  induction evs generalizing p with
  | nil => trivial
  | cons ev evs ih =>
    refine ⟨?_, ih (fun c o hm => h c o (List.mem_cons_of_mem _ hm)) _⟩
    cases ev with
    | start c o => exact fun _ => h c o List.mem_cons_self
    | step c => trivial
    | nature n => trivial

/-- no condition -/
theorem meets_starts_true (p : Pool σ ε A O) (evs : List (PoolEvent O N)) :
    p.Meets code nature (Starts fun _ _ _ => True) evs := meets_starts (fun _ _ _ => trivial) p

end Rule

/-! ## Order -/

section Order

variable {S : σ → σ → Prop} {s₀ s : σ} {tr : List (Entry σ ε A O)} {r : Running σ ε A O} {c : ℕ} {f : σ → σ}
  {next : σ → Code σ ε A}

/-- entries in the order of their positions, along `S`; a call that began after an entry began on a later state -/
structure OrderedTrace (S : σ → σ → Prop) (s₀ s : σ) (tr : List (Entry σ ε A O)) : Prop where
  since : S s₀ s
  placed : ∀ e ∈ tr, e.begun ≤ e.pos ∧ e.pos < tr.length
  now : ∀ e ∈ tr, S e.after s
  own : ∀ e ∈ tr, S e.origin e.before
  began : ∀ e ∈ tr, ∀ e' ∈ tr, e.pos < e'.begun → S e.after e'.origin

/-- the same of a call: one that is running, or that starts now -/
structure OrderedCall (S : σ → σ → Prop) (s : σ) (tr : List (Entry σ ε A O)) (r : Running σ ε A O) : Prop where
  since : S r.origin s
  placed : r.begun ≤ tr.length
  began : ∀ e ∈ tr, e.pos < r.begun → S e.after r.origin

theorem OrderedTrace.mono {S' : σ → σ → Prop} (hS : ∀ s s', S s s' → S' s s') (h : OrderedTrace S s₀ s tr) :
    OrderedTrace S' s₀ s tr where
  since := hS _ _ h.since
  placed := h.placed
  now := fun e he => hS _ _ (h.now e he)
  own := fun e he => hS _ _ (h.own e he)
  began := fun e he e' he' hlt => hS _ _ (h.began e he e' he' hlt)

theorem orderedTrace_init (hrefl : ∀ s, S s s) (s : σ) : OrderedTrace S s s ([] : List (Entry σ ε A O)) where
  since := hrefl s
  placed := fun e he => by cases he
  now := fun e he => by cases he
  own := fun e he => by cases he
  began := fun e he => by cases he

/-- a statement of the call -/
theorem OrderedTrace.snoc (hrefl : ∀ s, S s s) (htrans : ∀ s₁ s₂ s₃, S s₁ s₂ → S s₂ s₃ → S s₁ s₃)
    (h : OrderedTrace S s₀ s tr) (hcall : OrderedCall S s tr r) (hstep : S s (f s)) :
    OrderedTrace S s₀ (f s) (tr ++ [r.entry c tr.length s f (next s)]) := by
  refine ⟨htrans _ _ _ h.since hstep, ?_, ?_, ?_, ?_⟩
  · rw [List.forall_mem_append, List.forall_mem_singleton, List.length_append, List.length_singleton]
    exact ⟨fun e he => ⟨(h.placed e he).1, Nat.lt_succ_of_lt (h.placed e he).2⟩, hcall.placed, Nat.lt_succ_self _⟩
  · rw [List.forall_mem_append, List.forall_mem_singleton]
    exact ⟨fun e he => htrans _ _ _ (h.now e he) hstep, hrefl _⟩
  · rw [List.forall_mem_append, List.forall_mem_singleton]
    exact ⟨h.own, hcall.since⟩
  · intro e he e' he' hlt
    rcases List.mem_append.1 he with he | he
    · rcases List.mem_append.1 he' with he' | he'
      · exact h.began e he e' he' hlt
      · cases List.mem_singleton.1 he'
        exact hcall.began e he hlt
    · -- nothing has begun after the entry that is the last one
      cases List.mem_singleton.1 he
      rcases List.mem_append.1 he' with he' | he'
      · have hplaced := h.placed e' he'
        have hbefore : e'.begun ≤ tr.length := Nat.le_of_lt (Nat.lt_of_le_of_lt hplaced.1 hplaced.2)
        exact absurd hlt (Nat.not_lt.2 hbefore)
      · cases List.mem_singleton.1 he'
        exact absurd hlt (Nat.not_lt.2 hcall.placed)

/-- an entry that is new, for any call -/
theorem OrderedCall.snoc (htrans : ∀ s₁ s₂ s₃, S s₁ s₂ → S s₂ s₃ → S s₁ s₃) (h : OrderedCall S s tr r)
    (hstep : S s (f s)) (r' : Running σ ε A O) :
    OrderedCall S (f s) (tr ++ [r'.entry c tr.length s f (next s)]) r := by
  refine ⟨htrans _ _ _ h.since hstep, ?_, ?_⟩
  · rw [List.length_append, List.length_singleton]
    exact Nat.le_succ_of_le h.placed
  · rw [List.forall_mem_append, List.forall_mem_singleton]
    exact ⟨h.began, fun hlt => absurd hlt (Nat.not_lt.2 h.placed)⟩

variable {code : O → Code σ ε A} {nature : N → σ → σ} {Start : σ → List (Entry σ ε A O) → O → Prop}
  {I : σ → List (Entry σ ε A O) → Prop} {K : σ → List (Entry σ ε A O) → Running σ ε A O → Prop}

/-- **Along a preorder**: what every statement and nature follow, the states of a run follow. -/
theorem CallRule.ordered (hrule : CallRule code nature Start I K) (hrefl : ∀ s, S s s)
    (htrans : ∀ s₁ s₂ s₃, S s₁ s₂ → S s₂ s₃ → S s₁ s₃) (hentry : ∀ s tr e, I s tr → e ∈ tr → S e.before e.after)
    (hnature : ∀ n s tr, I s tr → S s (nature n s)) (s₀ : σ) :
    CallRule code nature Start (fun s tr => I s tr ∧ OrderedTrace S s₀ s tr)
      fun s tr r => K s tr r ∧ OrderedCall S s tr r where
  own s tr c r f next hI hr hrest := by
    have hready : Ready code (Start s tr) (Begun K) s tr r := hr.imp_right fun h => ⟨h.1, h.2.1⟩
    have hcall : OrderedCall S s tr r := by
      rcases hr with ⟨o, -, rfl⟩ | ⟨-, -, hcall⟩
      · exact ⟨hrefl s, Nat.le_refl _, fun e he _ => hI.2.now e he⟩
      · exact hcall
    obtain ⟨hshared, hgoes⟩ := hrule.own s tr c r f next hI.1 hready hrest
    have hstep : S s (f s) := hentry _ _ _ hshared (List.mem_append_right _ (List.mem_singleton_self _))
    refine ⟨⟨hshared, hI.2.snoc hrefl htrans hcall hstep⟩, fun hnone => ⟨hgoes hnone, ?_⟩⟩
    obtain ⟨hsince, hplaced, hbegan⟩ := @OrderedCall.snoc _ _ _ _ S s tr r c f next htrans hcall hstep r
    exact ⟨hsince, hplaced, hbegan⟩
  others s tr c r f next r' hI hr hrest hr' hne := by
    have hready : Ready code (Start s tr) (Begun K) s tr r := hr.imp_right fun h => ⟨h.1, h.2.1⟩
    have hshared := (hrule.own s tr c r f next hI.1 hready hrest).shared
    have hstep : S s (f s) := hentry _ _ _ hshared (List.mem_append_right _ (List.mem_singleton_self _))
    exact ⟨hrule.others s tr c r f next r' hI.1 hready hrest hr'.1 hne, hr'.2.snoc htrans hstep r⟩
  natural s tr n hI := by
    obtain ⟨hshared, hcalls⟩ := hrule.natural s tr n hI.1
    have hstep : S s (nature n s) := hnature n s tr hI.1
    refine ⟨⟨hshared, htrans _ _ _ hI.2.since hstep, hI.2.placed, ?_, hI.2.own, hI.2.began⟩, ?_⟩
    · exact fun e he => htrans _ _ _ (hI.2.now e he) hstep
    · exact fun r hr => ⟨hcalls r hr.1, htrans _ _ _ hr.2.since hstep, hr.2.placed, hr.2.began⟩

end Order

/-! ## Counting calls -/

/-- entries of different calls, each of which has its first entry among `firsts` -/
theorem length_le_of_begun {entries firsts : List (Entry σ ε A O)} (hdiff : (entries.map Entry.begun).Nodup)
    (hfirst : ∀ e ∈ entries, e.begun ∈ firsts.map Entry.pos) : entries.length ≤ firsts.length := by
  have hsub : entries.map Entry.begun ⊆ firsts.map Entry.pos := by
    intro b hb
    obtain ⟨e, he, rfl⟩ := List.mem_map.1 hb
    exact hfirst e he
  calc entries.length
    _ = (entries.map Entry.begun).length := (List.length_map _).symm
    _ ≤ (firsts.map Entry.pos).length := (hdiff.subperm hsub).length_le
    _ = firsts.length := List.length_map _

end GigMarketplace.Core
