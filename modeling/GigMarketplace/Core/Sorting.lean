/-
Stable sorting by a key, ascending or descending, as Python's `list.sort(key=..., reverse=...)` and an ORDER BY do it.

Elements with equal keys keep the order they come in, also when the direction is reversed.

Results:
- `pairwise_sortOn_iff`: what the sorted list satisfies pair by pair, said of the list before it was sorted;
- `pairwise_resort_iff`: the same for a list that was sorted by the key before, in either direction;
- `upToTies_iff`: a list agrees with a sorted one up to the order of ties iff it has the same elements and is sorted.
-/
import Mathlib.Data.List.Sort

namespace GigMarketplace.Core

variable {α κ : Type} [LinearOrder κ] {key : α → κ} {reverse : Bool}

/-- `a` may stand before `b` -/
def Ordered (key : α → κ) (reverse : Bool) (a b : α) : Prop := if reverse then key b ≤ key a else key a ≤ key b

instance (key : α → κ) (reverse : Bool) : DecidableRel (Ordered key reverse) := fun a b => by
  unfold Ordered
  infer_instance

instance (key : α → κ) (reverse : Bool) : Std.Total (Ordered key reverse) where
  total a b := by
    cases reverse
    · exact le_total (key a) (key b)
    · exact le_total (key b) (key a)

instance (key : α → κ) (reverse : Bool) : IsTrans α (Ordered key reverse) where
  trans a b c hab hbc := by
    cases reverse
    · exact le_trans (α := κ) hab hbc
    · exact le_trans (α := κ) hbc hab

/-- `l.sort(key=key, reverse=reverse)` -/
def sortOn (key : α → κ) (reverse : Bool) (l : List α) : List α := l.insertionSort (Ordered key reverse)

theorem perm_sortOn (l : List α) : (sortOn key reverse l).Perm l := List.perm_insertionSort _ l

@[simp] theorem mem_sortOn {a : α} {l : List α} : a ∈ sortOn key reverse l ↔ a ∈ l := (perm_sortOn l).mem_iff

theorem sorted_sortOn (l : List α) : (sortOn key reverse l).Pairwise (Ordered key reverse) :=
  List.pairwise_insertionSort _ l

theorem sortOn_of_sorted {l : List α} (h : l.Pairwise (Ordered key reverse)) : sortOn key reverse l = l :=
  List.Pairwise.insertionSort_eq h

theorem map_sortOn {β : Type} (g : β → α) (l : List β) :
    (sortOn (key ∘ g) reverse l).map g = sortOn key reverse (l.map g) :=
  List.map_insertionSort _ _ g l fun _ _ _ _ => Iff.rfl

/-! ## Stability -/

theorem pairwise_orderedInsert_iff {le R : α → α → Prop} [DecidableRel le] [IsTrans α le] {a : α} {l : List α}
    (hl : l.Pairwise le) :
    (l.orderedInsert le a).Pairwise R ↔ l.Pairwise R ∧ ∀ b ∈ l, (le a b → R a b) ∧ (¬ le a b → R b a) := by
  induction l with
  | nil => simp
  | cons b l ih =>
    obtain ⟨hb, hl⟩ := List.pairwise_cons.1 hl
    by_cases hab : le a b
    · -- everything behind `b` is behind `a` too
      have hall : ∀ c ∈ b :: l, le a c := by
        intro c hc
        obtain rfl | hc := List.mem_cons.1 hc
        · exact hab
        · exact IsTrans.trans a b c hab (hb c hc)
      rw [List.orderedInsert_cons_of_le _ _ hab, List.pairwise_cons, and_comm]
      refine and_congr_right fun _ => forall₂_congr fun c hc => ?_
      simp [hall c hc]
    · rw [List.orderedInsert_of_not_le _ _ hab, List.pairwise_cons, List.pairwise_cons, ih hl]
      simp only [List.mem_orderedInsert, List.mem_cons, forall_eq_or_imp, hab, false_implies, true_and,
        not_false_eq_true, true_implies]
      tauto

theorem pairwise_sortOn_iff {R : α → α → Prop} (l : List α) :
    (sortOn key reverse l).Pairwise R ↔
      l.Pairwise fun a b => (Ordered key reverse a b → R a b) ∧ (¬ Ordered key reverse a b → R b a) := by
  induction l with
  | nil => simp [sortOn]
  | cons a l ih =>
    have hinsert : sortOn key reverse (a :: l) = (sortOn key reverse l).orderedInsert (Ordered key reverse) a := rfl
    rw [hinsert, pairwise_orderedInsert_iff (sorted_sortOn l), ih, List.pairwise_cons, and_comm]
    simp only [mem_sortOn]

/-- sorting by a key forgets a sorting by the same key, but for the order of equal keys, which neither changes -/
theorem pairwise_resort_iff {R : α → α → Prop} {before : Bool} {keep : α → Bool} (l : List α) :
    (sortOn key reverse ((sortOn key before l).filter keep)).Pairwise R ↔
      (l.filter keep).Pairwise fun a b => (Ordered key reverse a b → R a b) ∧ (¬ Ordered key reverse a b → R b a) := by
  rw [pairwise_sortOn_iff, List.pairwise_filter, pairwise_sortOn_iff, List.pairwise_filter]
  refine List.Pairwise.iff fun {a b} => ?_
  rcases lt_trichotomy (key a) (key b) with hlt | heq | hgt
  · cases reverse <;> cases before <;> simp [Ordered, hlt.le, not_le.2 hlt] <;> tauto
  · cases reverse <;> cases before <;> simp [Ordered, heq]
  · cases reverse <;> cases before <;> simp [Ordered, hgt.le, not_le.2 hgt] <;> tauto

/-- a filter that takes nothing more away -/
theorem filter_and_perm_iff {p q : α → Prop} [DecidablePred p] [DecidablePred q] {l : List α} :
    (l.filter fun a => p a ∧ q a).Perm (l.filter fun a => p a) ↔ ∀ a ∈ l, p a → q a := by
  constructor
  · intro hperm a ha hp
    have hmem : a ∈ l.filter fun a => p a ∧ q a := hperm.mem_iff.2 (List.mem_filter.2 ⟨ha, by simpa using hp⟩)
    simpa using (of_decide_eq_true (List.mem_filter.1 hmem).2).2
  · intro hq
    refine .of_eq (List.filter_congr fun a ha => ?_)
    by_cases hp : p a
    · simp [hp, hq a ha hp]
    · simp [hp]

/-! ## Ties -/

/-- the same elements, in the same order but for elements with one key -/
def UpToTies (key : α → κ) (l l' : List α) : Prop := l.Perm l' ∧ l.map key = l'.map key

theorem upToTies_iff {l l' : List α} (hl' : l'.Pairwise (Ordered key reverse)) :
    UpToTies key l l' ↔ l.Perm l' ∧ l.Pairwise (Ordered key reverse) := by
  let le (x y : κ) : Prop := if reverse then y ≤ x else x ≤ y
  have hmap : ∀ l : List α, l.Pairwise (Ordered key reverse) ↔ (l.map key).Pairwise le := by
    intro l
    rw [List.pairwise_map]
    rfl
  refine and_congr_right fun hperm => ⟨?_, ?_⟩
  · intro heq
    rw [hmap, heq, ← hmap]
    exact hl'
  · intro hl
    refine (hperm.map key).eq_of_pairwise ?_ ((hmap l).1 hl) ((hmap l').1 hl')
    intro x y _ _ hxy hyx
    cases reverse
    · exact le_antisymm hxy hyx
    · exact le_antisymm hyx hxy

end GigMarketplace.Core
