/-
Rely-guarantee triples for calls whose statements interleave (`Core/Threads.lean`).

`Core/Keeps.lean` says of a call only what does not depend on the state. Here a call may also rely on what it has done
or seen, as far as no other call takes it back: `c.Assures J R G Q s` is about a call that stands at the state `s`. The
others may move the state along `R` and keep `J`; from wherever they have left it, the next statement of `c` keeps `J`
and moves along `G`, and the rest of `c` stands at the state it leaves. A value that `c` returns satisfies `Q` together
with that state.

The first statement of a call is executed on the state that the call begins on, before the others can move it
(`AssuresFrom`).

Results:
- `assures_bind`, `assures_query`, `assures_act` and the others: one rule for each way to build code;
- `Assures.moved`: what a call assures, it assures after the others have moved the state;
- `pool_assures`: if every call, wherever it may start, keeps `J` and moves along a `G` of its own, which may speak of
  where it began, within the `R` that the others rely on, then `J` holds throughout a run, every entry moves along the
  `G` of its call, and what a call returns is as it has assured;
- `pool_ordered`: and the states of the run follow `R`, in the order of their positions.
-/
import GigMarketplace.Core.Calls
import GigMarketplace.Core.Keeps

namespace GigMarketplace.Core

variable {σ ε A B O N : Type}

namespace Code

def Assures (J : σ → Prop) (R G : σ → σ → Prop) (Q : A → σ → Prop) : Code σ ε A → σ → Prop
  | ret a, s => Q a s
  | raise _, _ => True
  | stmt f next, s => ∀ s', R s s' → J s' → (J (f s') ∧ G s' (f s')) ∧ (next s').Assures J R G Q (f s')

/-- the same of code whose first statement is executed at `s` itself -/
def AssuresFrom (J : σ → Prop) (R G : σ → σ → Prop) (Q : A → σ → Prop) : Code σ ε A → σ → Prop
  | ret a, s => Q a s
  | raise _, _ => True
  | stmt f next, s => (J (f s) ∧ G s (f s)) ∧ (next s).Assures J R G Q (f s)

section Rules

variable {J : σ → Prop} {R G : σ → σ → Prop} {P : A → σ → Prop} {Q : B → σ → Prop} {s : σ}

theorem assures_bind {c : Code σ ε A} {k : A → Code σ ε B} (h : c.Assures J R G P s)
    (hk : ∀ a s', P a s' → (k a).Assures J R G Q s') : (c >>= k).Assures J R G Q s := by
  induction c generalizing s with
  | ret a => exact hk a s h
  | raise e => exact h
  | stmt f next ih =>
    intro s' hR hJ
    exact ⟨(h s' hR hJ).1, ih s' (h s' hR hJ).2⟩

theorem assures_raiseIf {c : Prop} [Decidable c] {e : ε} {P : Unit → σ → Prop} (h : ¬ c → P () s) :
    (raiseIf c e : Code σ ε Unit).Assures J R G P s := by
  unfold raiseIf
  split_ifs with hc
  · trivial
  · exact h hc

theorem assures_ofExcept {x : Except ε A} (h : ∀ a, x = .ok a → P a s) :
    (ofExcept x : Code σ ε A).Assures J R G P s := by
  cases x with
  | ok a => exact h a rfl
  | error e => trivial

theorem assures_query (hrefl : ∀ s, G s s) {q : σ → Except ε A}
    (h : ∀ s' a, R s s' → J s' → q s' = .ok a → P a s') : (query q).Assures J R G P s := by
  intro s' hR hJ
  exact ⟨⟨hJ, hrefl s'⟩, assures_ofExcept fun a ha => h s' a hR hJ ha⟩

theorem assures_act (hrefl : ∀ s, G s s) {f : σ → Except ε (A × σ)}
    (h : ∀ s' x, R s s' → J s' → f s' = .ok x → J x.2 ∧ G s' x.2 ∧ P x.1 x.2) : (act f).Assures J R G P s := by
  intro s' hR hJ
  cases hx : f s' with
  | error e =>
    have heffect : effect f s' = s' := by simp only [effect, hx]
    rw [heffect]
    refine ⟨⟨hJ, hrefl s'⟩, assures_ofExcept fun a ha => ?_⟩
    rw [hx] at ha
    cases ha
  | ok x =>
    have heffect : effect f s' = x.2 := by simp only [effect, hx]
    obtain ⟨hJ', hG, hP⟩ := h s' x hR hJ hx
    rw [heffect]
    refine ⟨⟨hJ', hG⟩, assures_ofExcept fun a ha => ?_⟩
    rw [hx] at ha
    cases ha
    exact hP

/-- code that needs nothing of the others but `J` -/
theorem Keeps.assures {c : Code σ ε A} {P : A → Prop} (h : c.Keeps J G P) : c.Assures J R G (fun a _ => P a) s := by
  induction c generalizing s with
  | ret a => exact h
  | raise e => trivial
  | stmt f next ih =>
    intro s' _ hJ
    exact ⟨(h s' hJ).1, ih s' (h s' hJ).2⟩

/-- code whose statements all move along `G`, wherever they are executed -/
theorem assures_each {c : Code σ ε A} (hJ : ∀ s s', J s → G s s' → J s') (h : c.Each G) :
    c.Assures J R G (fun _ _ => True) s := by
  induction c generalizing s with
  | ret a => trivial
  | raise e => trivial
  | stmt f next ih =>
    intro s' _ hs'
    exact ⟨⟨hJ s' (f s') hs' (h s').1, (h s').1⟩, ih s' (h s').2⟩

/-- the others have moved the state -/
theorem Assures.moved (htrans : ∀ s₁ s₂ s₃, R s₁ s₂ → R s₂ s₃ → R s₁ s₃) {c : Code σ ε A} (hrunning : c.result = none)
    {s' : σ} (hR : R s s') (h : c.Assures J R G P s) : c.Assures J R G P s' := by
  obtain ⟨f, next, rfl⟩ := stmt_of_result hrunning
  intro s₁ hR₁ hJ
  exact h s₁ (htrans _ _ _ hR hR₁) hJ

theorem Assures.post {c : Code σ ε A} {P' : A → σ → Prop} (h : c.Assures J R G P s) (hP : ∀ a s', P a s' → P' a s') :
    c.Assures J R G P' s := by
  induction c generalizing s with
  | ret a => exact hP a s h
  | raise e => exact h
  | stmt f next ih =>
    intro s' hR hJ
    exact ⟨(h s' hR hJ).1, ih s' (h s' hR hJ).2⟩

theorem Assures.start (hR : R s s) (hJ : J s) {c : Code σ ε A} (h : c.Assures J R G P s) :
    c.AssuresFrom J R G P s := by
  cases c with
  | ret a => exact h
  | raise e => exact h
  | stmt f next => exact h s hR hJ

theorem assuresFrom_bind (hR : R s s) (hJ : J s) {c : Code σ ε A} {k : A → Code σ ε B} (h : c.AssuresFrom J R G P s)
    (hk : ∀ a s', P a s' → (k a).Assures J R G Q s') : (c >>= k).AssuresFrom J R G Q s := by
  cases c with
  | ret a => exact (hk a s h).start hR hJ
  | raise e => exact h
  | stmt f next => exact ⟨h.1, assures_bind h.2 hk⟩

/-- what a call reads first, it reads where it begins -/
theorem assuresFrom_query_bind (hrefl : ∀ s, G s s) (hJ : J s) {q : σ → Except ε A} {k : A → Code σ ε B}
    (h : ∀ a, q s = .ok a → (k a).Assures J R G Q s) : (query q >>= k).AssuresFrom J R G Q s := by
  refine ⟨⟨hJ, hrefl s⟩, ?_⟩
  exact assures_bind (P := fun a s' => q s = .ok a ∧ s' = s) (assures_ofExcept fun a ha => ⟨ha, rfl⟩) fun a s' ha =>
    ha.2 ▸ h a ha.1

end Rules

end Code

/-! ## The pool -/

section Pool

variable {code : O → Code σ ε A} {nature : N → σ → σ} {J : σ → Prop} {R : σ → σ → Prop} {G : O → σ → σ → σ → Prop}
  {P : O → σ → A → σ → Prop} {Start : O → σ → Prop}

/-- every entry was executed where `J` holds, and moved along `G`; what a call returned satisfies `P` with the state
that it began on and the one at its end -/
def AssuredTrace (J : σ → Prop) (G : O → σ → σ → σ → Prop) (P : O → σ → A → σ → Prop) (tr : List (Entry σ ε A O)) :
    Prop :=
  ∀ e ∈ tr, (J e.before ∧ J e.after) ∧ G e.op e.origin e.before e.after ∧
    ∀ a, e.result = some (.ok a) → P e.op e.origin a e.after

theorem returned {c : Code σ ε A} {G : σ → σ → Prop} {Q : A → σ → Prop} {s : σ} (h : c.Assures J R G Q s) {a : A}
    (ha : c.result = some (.ok a)) : Q a s := by
  cases c with
  | ret b =>
    cases ha
    exact h
  | raise e => cases ha
  | stmt f next => cases ha

/-- what a call that is ready to go on does next -/
theorem assures_next (hrefl : ∀ s, R s s)
    (hcode : ∀ o s, J s → Start o s → (code o).AssuresFrom J R (G o s) (P o s) s) {s : σ}
    {tr : List (Entry σ ε A O)} {r : Running σ ε A O} (hJ : J s)
    (hr : Ready code (Start · s) (fun s _ r => r.rest.Assures J R (G r.op r.origin) (P r.op r.origin) s) s tr r)
    {f : σ → σ} {next : σ → Code σ ε A} (hrest : r.rest = .stmt f next) :
    (J (f s) ∧ G r.op r.origin s (f s)) ∧
      (next s).Assures J R (G r.op r.origin) (P r.op r.origin) (f s) := by
  rcases hr with ⟨o, hstart, rfl⟩ | hrun
  · have hfrom := hcode o s hJ hstart
    change code o = _ at hrest
    rw [hrest] at hfrom
    exact hfrom
  · rw [hrest] at hrun
    exact hrun s (hrefl s) hJ

theorem assures_rule (hrefl : ∀ s, R s s) (htrans : ∀ s₁ s₂ s₃, R s₁ s₂ → R s₂ s₃ → R s₁ s₃)
    (hG : ∀ o s₀ s s', G o s₀ s s' → R s s')
    (hcode : ∀ o s, J s → Start o s → (code o).AssuresFrom J R (G o s) (P o s) s)
    (hnature : ∀ n s, J s → J (nature n s) ∧ R s (nature n s)) :
    CallRule code nature (fun s _ o => Start o s) (fun s tr => J s ∧ AssuredTrace J G P tr)
      (fun s _ r => r.rest.result = none ∧ r.rest.Assures J R (G r.op r.origin) (P r.op r.origin) s) where
  own s tr c r f next hI hr hrest := by
    obtain ⟨⟨hJ, hstep⟩, hnext⟩ := assures_next hrefl hcode hI.1 (hr.imp_right fun h => h.2.2) hrest
    refine ⟨⟨hJ, ?_⟩, fun hnone => ⟨hnone, hnext⟩⟩
    unfold AssuredTrace
    rw [List.forall_mem_append, List.forall_mem_singleton]
    exact ⟨hI.2, ⟨hI.1, hJ⟩, hstep, fun a ha => returned hnext ha⟩
  others s tr c r f next r' hI hr hrest hr' _ := by
    have hstep := (assures_next hrefl hcode hI.1 (hr.imp_right fun h => h.2.2) hrest).1.2
    exact ⟨hr'.1, hr'.2.moved htrans hr'.1 (hG _ _ _ _ hstep)⟩
  natural s tr n hI := by
    obtain ⟨hJ, hR⟩ := hnature n s hI.1
    exact ⟨⟨hJ, hI.2⟩, fun r hr => ⟨hr.1, hr.2.moved htrans hr.1 hR⟩⟩

/-- **Calls that rely on each other**, in any interleaving in which every call starts where `Start` lets it. -/
theorem pool_assures (hrefl : ∀ s, R s s) (htrans : ∀ s₁ s₂ s₃, R s₁ s₂ → R s₂ s₃ → R s₁ s₃)
    (hG : ∀ o s₀ s s', G o s₀ s s' → R s s')
    (hcode : ∀ o s, J s → Start o s → (code o).AssuresFrom J R (G o s) (P o s) s)
    (hnature : ∀ n s, J s → J (nature n s) ∧ R s (nature n s)) {s : σ} (hs : J s) {evs : List (PoolEvent O N)}
    (hevs : (Pool.init s).Meets code nature (Starts fun s _ o => Start o s) evs) :
    J ((Pool.init s).run code nature evs).mem ∧ AssuredTrace J G P ((Pool.init s).run code nature evs).trace :=
  (calls_inv (assures_rule hrefl htrans hG hcode hnature) (callInv_init ⟨hs, fun e he => by cases he⟩)
    hevs).inv.shared

/-- the same run: its states follow `R`, in the order of their positions -/
theorem pool_ordered (hrefl : ∀ s, R s s) (htrans : ∀ s₁ s₂ s₃, R s₁ s₂ → R s₂ s₃ → R s₁ s₃)
    (hG : ∀ o s₀ s s', G o s₀ s s' → R s s')
    (hcode : ∀ o s, J s → Start o s → (code o).AssuresFrom J R (G o s) (P o s) s)
    (hnature : ∀ n s, J s → J (nature n s) ∧ R s (nature n s)) {s : σ} (hs : J s) {evs : List (PoolEvent O N)}
    (hevs : (Pool.init s).Meets code nature (Starts fun s _ o => Start o s) evs) :
    OrderedTrace R s ((Pool.init s).run code nature evs).mem ((Pool.init s).run code nature evs).trace := by
  have hrule := (assures_rule (P := P) hrefl htrans hG hcode hnature).ordered hrefl htrans
    (fun _ _ e hI he => hG e.op e.origin _ _ (hI.2 e he).2.1) (fun n s _ hI => (hnature n s hI.1).2) s
  exact (calls_inv hrule (callInv_init ⟨⟨hs, fun e he => by cases he⟩, orderedTrace_init hrefl s⟩) hevs).inv.shared.2

end Pool

end GigMarketplace.Core
