/-
Calls with a ghost state (`Core/Threads.lean`).

`c.Follows G Q g`: from the ghost state `g` every statement of `c` takes a step of `G`, which relates the states around
the statement and the ghost states around it; a value that `c` returns satisfies `Q` with the ghost state at the end.
Nothing reads the ghost state; it says what a call has done so far that matters to the others, such as a key that it
has claimed and not used yet.

Results:
- `follows_bind`, `follows_query`, `follows_act` and the others: one rule for each way to build code;
- `ghost_inv`: the invariant rule for calls told apart by where they began, with one condition for each step of `G`;
- `posted_once`: if each call posts no key but a fresh one that it has stored itself, and no more than once, then no key
  is posted twice.
-/
import Mathlib.Data.List.Nodup
import GigMarketplace.Core.Calls

namespace GigMarketplace.Core

variable {σ ε A B O N γ : Type}

namespace Code

def Follows (G : σ → σ → γ → γ → Prop) (Q : A → γ → Prop) : γ → Code σ ε A → Prop
  | g, ret a => Q a g
  | _, raise _ => True
  | g, stmt f next => ∀ s, ∃ g', G s (f s) g g' ∧ (next s).Follows G Q g'

section Rules

variable {G : σ → σ → γ → γ → Prop} {P : A → γ → Prop} {Q : B → γ → Prop} {g : γ}

theorem follows_bind {c : Code σ ε A} {k : A → Code σ ε B} (h : c.Follows G P g)
    (hk : ∀ a g', P a g' → (k a).Follows G Q g') : (c >>= k).Follows G Q g := by
  induction c generalizing g with
  | ret a => exact hk a g h
  | raise e => exact h
  | stmt f next ih =>
    intro s
    obtain ⟨g', hstep, hnext⟩ := h s
    exact ⟨g', hstep, ih s hnext⟩

theorem follows_ofExcept {x : Except ε A} (h : ∀ a, x = .ok a → P a g) : (ofExcept x : Code σ ε A).Follows G P g := by
  cases x with
  | ok a => exact h a rfl
  | error e => trivial

/-- code whose statements all leave the ghost state -/
theorem follows_each {R : σ → σ → Prop} (hR : ∀ s s' g, R s s' → G s s' g g) {c : Code σ ε A} (h : c.Each R) :
    c.Follows G (fun _ g' => g' = g) g := by
  induction c with
  | ret a => rfl
  | raise e => trivial
  | stmt f next ih =>
    intro s
    exact ⟨g, hR _ _ g (h s).1, ih s (h s).2⟩

theorem follows_act {f : σ → Except ε (A × σ)} (hrefl : ∀ s g, G s s g g)
    (h : ∀ s x, f s = .ok x → ∃ g', G s x.2 g g' ∧ P x.1 g') : (act f).Follows G P g := by
  intro s
  cases hx : f s with
  | error e =>
    have heffect : effect f s = s := by simp only [effect, hx]
    rw [heffect]
    refine ⟨g, hrefl s g, follows_ofExcept fun a ha => ?_⟩
    rw [hx] at ha
    cases ha
  | ok x =>
    have heffect : effect f s = x.2 := by simp only [effect, hx]
    obtain ⟨g', hstep, hP⟩ := h s x hx
    rw [heffect]
    refine ⟨g', hstep, follows_ofExcept fun a ha => ?_⟩
    rw [hx] at ha
    cases ha
    exact hP

theorem Follows.post {c : Code σ ε A} {P' : A → γ → Prop} (h : c.Follows G P g) (hP : ∀ a g', P a g' → P' a g') :
    c.Follows G P' g := by
  induction c generalizing g with
  | ret a => exact hP a g h
  | raise e => trivial
  | stmt f next ih =>
    intro s
    obtain ⟨g', hstep, hnext⟩ := h s
    exact ⟨g', hstep, ih s hnext⟩

end Rules

end Code

/-! ## The pool -/

section Pool

variable {code : O → Code σ ε A} {nature : N → σ → σ} {G : σ → σ → γ → γ → Prop} {Q : A → γ → Prop} {g₀ : γ}
  {I : σ → List (Entry σ ε A O) → Prop} {K : σ → List (Entry σ ε A O) → ℕ → γ → Prop}

/-- What has to be shown of one step of `G`, by a call that began at `b`, with the entry `e`: the shared part holds
afterwards, the call's own ghost part holds of its new ghost state, and another call's of its old one. -/
structure GhostRule (nature : N → σ → σ) (G : σ → σ → γ → γ → Prop) (g₀ : γ) (I : σ → List (Entry σ ε A O) → Prop)
    (K : σ → List (Entry σ ε A O) → ℕ → γ → Prop) : Prop where
  start : ∀ s tr b, I s tr → K s tr b g₀
  own : ∀ s s' tr e g g', I s tr → e.before = s → e.after = s' → K s tr e.begun g → G s s' g g' →
    I s' (tr ++ [e]) ∧ K s' (tr ++ [e]) e.begun g'
  others : ∀ s s' tr e g g' b' h', I s tr → e.before = s → e.after = s' → K s tr e.begun g → G s s' g g' →
    b' ≠ e.begun → K s tr b' h' → K s' (tr ++ [e]) b' h'
  natural : ∀ s tr n, I s tr → I (nature n s) tr ∧ ∀ b g, K s tr b g → K (nature n s) tr b g

theorem ghostRule_calls (hrule : GhostRule nature G g₀ I K) (hcode : ∀ o, (code o).Follows G Q g₀) :
    CallRule code nature (fun _ _ _ => True) I fun s tr r => ∃ g, r.rest.Follows G Q g ∧ K s tr r.begun g where
  own s tr c r f next hI hr hrest := by
    have hghost : ∃ g, r.rest.Follows G Q g ∧ K s tr r.begun g := by
      rcases hr with ⟨o, -, rfl⟩ | ⟨-, hrun⟩
      · exact ⟨g₀, hcode o, hrule.start s tr _ hI⟩
      · exact hrun
    obtain ⟨g, hfollows, hK⟩ := hghost
    rw [hrest] at hfollows
    obtain ⟨g', hstep, hnext⟩ := hfollows s
    obtain ⟨hI', hK'⟩ := hrule.own s (f s) tr (r.entry c tr.length s f (next s)) g g' hI rfl rfl hK hstep
    exact ⟨hI', fun _ => ⟨g', hnext, hK'⟩⟩
  others s tr c r f next r' hI hr hrest hr' hne := by
    have hghost : ∃ g, r.rest.Follows G Q g ∧ K s tr r.begun g := by
      rcases hr with ⟨o, -, rfl⟩ | ⟨-, hrun⟩
      · exact ⟨g₀, hcode o, hrule.start s tr _ hI⟩
      · exact hrun
    obtain ⟨g, hfollows, hK⟩ := hghost
    rw [hrest] at hfollows
    obtain ⟨g', hstep, -⟩ := hfollows s
    obtain ⟨h', hfollows', hK'⟩ := hr'
    exact ⟨h', hfollows', hrule.others s (f s) tr _ g g' _ h' hI rfl rfl hK hstep hne hK'⟩
  natural s tr n hI := by
    obtain ⟨hI', hK⟩ := hrule.natural s tr n hI
    exact ⟨hI', fun r ⟨g, hfollows, hr⟩ => ⟨g, hfollows, hK _ _ hr⟩⟩

/-- **The invariant rule** for calls with a ghost state. -/
theorem ghost_inv (hrule : GhostRule nature G g₀ I K) (hcode : ∀ o, (code o).Follows G Q g₀) {s : σ} (hs : I s [])
    (evs : List (PoolEvent O N)) :
    I ((Pool.init s).run code nature evs).mem ((Pool.init s).run code nature evs).trace :=
  (calls_inv (ghostRule_calls hrule hcode) (callInv_init hs) (meets_starts_true _ evs)).inv.shared

end Pool

/-! ## Fresh keys, posted once -/

section Posts

variable {κ : Type} (stored : σ → κ → Prop) (posted : σ → List κ)

/-- a statement claims a fresh key by storing it, posts the key that its call has claimed, or does neither -/
inductive ClaimStep (s s' : σ) : Option κ → Option κ → Prop where
  | quiet (g : Option κ) (hposted : posted s' = posted s) : ClaimStep s s' g g
  | claim (k : κ) (hposted : posted s' = posted s) (hfresh : ¬ stored s k) (hstored : stored s' k) :
      ClaimStep s s' none (some k)
  | post (k : κ) (hposted : posted s' = posted s ++ [k]) : ClaimStep s s' (some k) none

structure Claims (s s' : σ) (g g' : Option κ) : Prop where
  kept : ∀ k, stored s k → stored s' k
  step : ClaimStep stored posted s s' g g'

/-- `e` has stored `k` -/
def StoredBy (e : Entry σ ε A O) (k : κ) : Prop := ¬ stored e.before k ∧ stored e.after k

structure PostLaw (s : σ) (tr : List (Entry σ ε A O)) : Prop where
  nodup : (posted s).Nodup
  known : ∀ k ∈ posted s, stored s k
  kept : ∀ e ∈ tr, ∀ k, stored e.after k → stored s k
  owner : ∀ e ∈ tr, ∀ e' ∈ tr, ∀ k, StoredBy stored e k → StoredBy stored e' k → e.begun = e'.begun

/-- a key that a call has claimed is not posted yet -/
def Claimed (s : σ) (tr : List (Entry σ ε A O)) (b : ℕ) (g : Option κ) : Prop :=
  ∀ k, g = some k → (stored s k ∧ k ∉ posted s) ∧ ∃ e ∈ tr, e.begun = b ∧ StoredBy stored e k

variable {stored posted} {s s' : σ} {tr : List (Entry σ ε A O)} {e : Entry σ ε A O} {g g' h : Option κ} {b : ℕ}

theorem PostLaw.step (hlaw : PostLaw stored posted s tr) (hbefore : e.before = s) (hafter : e.after = s')
    (hclaimed : Claimed stored posted s tr e.begun g) (hstep : Claims stored posted s s' g g') :
    PostLaw stored posted s' (tr ++ [e]) := by
  have hkept : ∀ d ∈ tr ++ [e], ∀ k, stored d.after k → stored s' k := by
    rw [List.forall_mem_append, List.forall_mem_singleton, hafter]
    exact ⟨fun d hd k hk => hstep.kept k (hlaw.kept d hd k hk), fun k hk => hk⟩
  have howner : ∀ d ∈ tr ++ [e], ∀ d' ∈ tr ++ [e], ∀ k, StoredBy stored d k → StoredBy stored d' k →
      d.begun = d'.begun := by
    -- what `e` stores was not stored before, so no earlier entry has stored it
    have hnew : ∀ d ∈ tr, ∀ k, StoredBy stored d k → ¬ StoredBy stored e k := by
      intro d hd k hdk hek
      rw [StoredBy, hbefore] at hek
      exact hek.1 (hlaw.kept d hd k hdk.2)
    intro d hd d' hd' k hk hk'
    rcases List.mem_append.1 hd with hd | hd
    · rcases List.mem_append.1 hd' with hd' | hd'
      · exact hlaw.owner d hd d' hd' k hk hk'
      · cases List.mem_singleton.1 hd'
        exact absurd hk' (hnew d hd k hk)
    · cases List.mem_singleton.1 hd
      rcases List.mem_append.1 hd' with hd' | hd'
      · exact absurd hk (hnew d' hd' k hk')
      · cases List.mem_singleton.1 hd'
        rfl
  have hold : ∀ k ∈ posted s, stored s' k := fun k hk => hstep.kept k (hlaw.known k hk)
  refine ⟨?_, ?_, hkept, howner⟩
  · cases hstep.step with
    | quiet _ hposted => rw [hposted]; exact hlaw.nodup
    | claim k hposted => rw [hposted]; exact hlaw.nodup
    | post k hposted =>
      rw [hposted, List.nodup_append_comm, List.singleton_append, List.nodup_cons]
      exact ⟨(hclaimed k rfl).1.2, hlaw.nodup⟩
  · cases hstep.step with
    | quiet _ hposted => rw [hposted]; exact hold
    | claim k hposted => rw [hposted]; exact hold
    | post k hposted =>
      rw [hposted, List.forall_mem_append, List.forall_mem_singleton]
      exact ⟨hold, hstep.kept k (hclaimed k rfl).1.1⟩

/-- what the call itself has claimed afterwards -/
theorem Claimed.own (hlaw : PostLaw stored posted s tr) (hbefore : e.before = s) (hafter : e.after = s')
    (hclaimed : Claimed stored posted s tr e.begun g) (hstep : Claims stored posted s s' g g') :
    Claimed stored posted s' (tr ++ [e]) e.begun g' := by
  intro k hk
  cases hstep.step with
  | quiet _ hposted =>
    obtain ⟨⟨hstored, hno⟩, d, hd, hbegun, hby⟩ := hclaimed k hk
    rw [hposted]
    exact ⟨⟨hstep.kept k hstored, hno⟩, d, List.mem_append_left _ hd, hbegun, hby⟩
  | claim k' hposted hfresh hstored =>
    cases hk
    rw [hposted]
    refine ⟨⟨hstored, fun hmem => hfresh (hlaw.known k hmem)⟩, e, ?_, rfl, ?_⟩
    · exact List.mem_append_right _ (List.mem_singleton_self _)
    · rw [StoredBy, hbefore, hafter]
      exact ⟨hfresh, hstored⟩
  | post k' hposted => cases hk

/-- what another call has claimed is not what this one posts -/
theorem Claimed.other (hlaw : PostLaw stored posted s tr) (hclaimed : Claimed stored posted s tr e.begun g)
    (hstep : Claims stored posted s s' g g') (hne : b ≠ e.begun) (hother : Claimed stored posted s tr b h) :
    Claimed stored posted s' (tr ++ [e]) b h := by
  intro k hk
  obtain ⟨⟨hstored, hno⟩, d, hd, hbegun, hby⟩ := hother k hk
  refine ⟨⟨hstep.kept k hstored, ?_⟩, d, List.mem_append_left _ hd, hbegun, hby⟩
  cases hstep.step with
  | quiet _ hposted => rw [hposted]; exact hno
  | claim k' hposted => rw [hposted]; exact hno
  | post k' hposted =>
    rw [hposted, List.mem_append, List.mem_singleton, not_or]
    refine ⟨hno, ?_⟩
    rintro rfl
    obtain ⟨-, d', hd', hbegun', hby'⟩ := hclaimed k rfl
    exact hne (hbegun.symm.trans ((hlaw.owner d hd d' hd' k hby hby').trans hbegun'))

theorem post_rule {nature : N → σ → σ}
    (hnature : ∀ n s, posted (nature n s) = posted s ∧ ∀ k, stored s k → stored (nature n s) k) :
    @GhostRule σ ε A O N (Option κ) nature (Claims stored posted) none (PostLaw stored posted)
      (Claimed stored posted) where
  start s tr b hI k hk := by cases hk
  own s s' tr e g g' hI hbefore hafter hK hstep :=
    ⟨hI.step hbefore hafter hK hstep, Claimed.own hI hbefore hafter hK hstep⟩
  others s s' tr e g g' b' h' hI _ _ hK hstep hne hK' := Claimed.other hI hK hstep hne hK'
  natural s tr n hI := by
    obtain ⟨hposted, hkept⟩ := hnature n s
    refine ⟨⟨?_, ?_, fun e he k hk => hkept k (hI.kept e he k hk), hI.owner⟩, fun b g hg k hk => ?_⟩
    · rw [hposted]
      exact hI.nodup
    · rw [hposted]
      exact fun k hk => hkept k (hI.known k hk)
    · obtain ⟨⟨hstored, hno⟩, howner⟩ := hg k hk
      rw [hposted]
      exact ⟨⟨hkept k hstored, hno⟩, howner⟩

/-- **Posted once.** -/
theorem posted_once {code : O → Code σ ε A} {nature : N → σ → σ} {Q : A → Option κ → Prop}
    (hcode : ∀ o, (code o).Follows (Claims stored posted) Q none)
    (hnature : ∀ n s, posted (nature n s) = posted s ∧ ∀ k, stored s k → stored (nature n s) k)
    (hs : posted s = []) (evs : List (PoolEvent O N)) : (posted ((Pool.init s).run code nature evs).mem).Nodup := by
  refine (ghost_inv (post_rule hnature) hcode (s := s) ⟨?_, ?_, ?_, ?_⟩ evs).nodup
  · rw [hs]
    exact List.nodup_nil
  · rw [hs]
    intro k hk
    cases hk
  · intro e he
    cases he
  · intro e he
    cases he

end Posts

end GigMarketplace.Core
