/-
Reading a list page by page while it changes.

A page is read in two steps: the elements are counted, and then the page is read, cut off at the count. Between any two
steps elements may come in, anywhere, or go. A client asks for one page after another, as long as the count says that
there is a next one.

Results:
- `shown_or_beyond`: if none goes, every element that was there at the start is shown on some page, or stands beyond the
  count of the last page when that page is read;
- `length_shown`: in all, as many rows are shown as the last page has counted;
- `shown_or_overtaken`: an element that stays, and that no page finds further in front than the page before, is shown
  or stands beyond the last count;
- `sortOn_sublist`: sorted by a key without ties, a list that elements come into grows;
- `position_le`: sorted so, an element comes further in front only when one that stood before it goes.
-/
import Mathlib.Data.List.Perm.Subperm
import GigMarketplace.Core.Paging

namespace GigMarketplace.Core

variable {α : Type}

/-- page `n`, counted from 0, where `count` elements are known of -/
def cutPage (size n count : ℕ) (l : List α) : List α :=
  (l.drop (n * size)).take (min (n * size + size) count - n * size)

theorem map_cutPage {β : Type} (g : α → β) (size n count : ℕ) (l : List α) :
    (cutPage size n count l).map g = cutPage size n count (l.map g) := by
  rw [cutPage, cutPage, List.map_take, List.map_drop]

/-- nothing came in between the two steps -/
theorem cutPage_length (size n : ℕ) (l : List α) : cutPage size n l.length l = slice size n l := by
  unfold cutPage slice
  rcases Nat.le_total (n * size + size) l.length with h | h
  · rw [min_eq_left h, Nat.add_sub_cancel_left]
  · have hlength : (l.drop (n * size)).length = l.length - n * size := List.length_drop
    rw [min_eq_right h, List.take_of_length_le (by omega), List.take_of_length_le (by omega)]

/-- The pages 0 to `last`, and what was counted for each of them. There is a next page iff the count goes beyond this
one. -/
structure Turns (size last : ℕ) (count : ℕ → ℕ) : Prop where
  more : ∀ n < last, n * size + size < count n
  done : count last ≤ last * size + size

/-- pages of a list that elements come into; `l n` is what the page `n` was read from -/
structure Visit (size last : ℕ) (count : ℕ → ℕ) (l : ℕ → List α) : Prop extends Turns size last count where
  grows : ∀ n < last, (l n).Sublist (l (n + 1))
  known : ∀ n ≤ last, count n ≤ (l n).length

section Visit

variable {size last : ℕ} {count : ℕ → ℕ} {l : ℕ → List α} {a : α}

/-- the last page begins before the end of what it has counted -/
theorem start_le {total : ℕ} (hvalid : last * size < max 1 total) : last * size ≤ total := by
  rcases Nat.eq_zero_or_pos total with hzero | hpos
  · rw [hzero] at hvalid ⊢
    omega
  · omega

theorem shown_before (h : Visit size last count l) (ha : a ∈ l 0) {n : ℕ} (hn : n ≤ last) :
    (∃ k < n, a ∈ cutPage size k (count k) (l k)) ∨ a ∈ (l n).drop (n * size) := by
  induction n with
  | zero =>
    right
    rwa [Nat.zero_mul, List.drop_zero]
  | succ n ih =>
    rcases ih (by omega) with ⟨k, hk, hshown⟩ | hrest
    · exact Or.inl ⟨k, by omega, hshown⟩
    · -- it stands on this page, which is a full one, or behind it
      have hfull : min (n * size + size) (count n) - n * size = size := by
        rw [min_eq_left (h.more n (by omega)).le, Nat.add_sub_cancel_left]
      rw [← List.take_append_drop size ((l n).drop (n * size)), List.drop_drop, List.mem_append] at hrest
      rcases hrest with hpage | hbehind
      · left
        refine ⟨n, Nat.lt_succ_self n, ?_⟩
        rwa [cutPage, hfull]
      · right
        rw [Nat.succ_mul]
        exact ((h.grows n (by omega)).drop _).subset hbehind

/-- **Shown, or beyond the last count.** -/
theorem shown_or_beyond (h : Visit size last count l) (hvalid : last * size < max 1 (count last)) (ha : a ∈ l 0) :
    (∃ n ≤ last, a ∈ cutPage size n (count n) (l n)) ∨ a ∈ (l last).drop (count last) := by
  rcases shown_before h ha (Nat.le_refl last) with ⟨n, hn, hshown⟩ | hrest
  · exact Or.inl ⟨n, hn.le, hshown⟩
  · have hstart := start_le hvalid
    have hcut : min (last * size + size) (count last) - last * size = count last - last * size := by
      rw [min_eq_right h.done]
    rw [← List.take_append_drop (count last - last * size) ((l last).drop (last * size)), List.drop_drop,
      List.mem_append, Nat.add_sub_cancel' hstart] at hrest
    rcases hrest with hpage | hbeyond
    · left
      refine ⟨last, Nat.le_refl last, ?_⟩
      rwa [cutPage, hcut]
    · exact Or.inr hbeyond

/-- the pages before the last one are full -/
theorem length_before (h : Visit size last count l) {n : ℕ} (hn : n ≤ last) :
    ((List.range n).flatMap fun k => cutPage size k (count k) (l k)).length = n * size := by
  induction n with
  | zero => simp
  | succ n ih =>
    have hmore := h.more n (by omega)
    have hknown := h.known n (by omega)
    rw [List.range_succ, List.flatMap_append, List.flatMap_singleton, List.length_append, ih (by omega), cutPage,
      List.length_take, List.length_drop, Nat.succ_mul]
    omega

/-- **In all** the client is shown as many rows as the last page has counted. -/
theorem length_shown (h : Visit size last count l) (hvalid : last * size < max 1 (count last)) :
    ((List.range (last + 1)).flatMap fun n => cutPage size n (count n) (l n)).length = count last := by
  have hstart := start_le hvalid
  have hdone := h.done
  have hknown := h.known last (Nat.le_refl last)
  rw [List.range_succ, List.flatMap_append, List.flatMap_singleton, List.length_append,
    length_before h (Nat.le_refl last), cutPage, List.length_take, List.length_drop]
  omega

/-! ### Elements that stay -/

/-- the element at a place of the page -/
theorem mem_cutPage {n i total : ℕ} {m : List α} (hi : m[i]? = some a) (hfirst : n * size ≤ i)
    (hlast : i < n * size + size) (htotal : i < total) : a ∈ cutPage size n total m := by
  unfold cutPage
  apply List.mem_of_getElem? (i := i - n * size)
  rw [List.getElem?_take, if_pos (by omega), List.getElem?_drop, Nat.add_sub_cancel' hfirst]
  exact hi

theorem shown_at {p : ℕ → ℕ} (h : Turns size last count) (hp : ∀ n ≤ last, (l n)[p n]? = some a)
    (hmono : ∀ n < last, p n ≤ p (n + 1)) {n : ℕ} (hn : n ≤ last) :
    (∃ k < n, a ∈ cutPage size k (count k) (l k)) ∨ n * size ≤ p n := by
  induction n with
  | zero =>
    right
    rw [Nat.zero_mul]
    exact Nat.zero_le _
  | succ n ih =>
    rcases ih (by omega) with ⟨k, hk, hshown⟩ | hrest
    · exact Or.inl ⟨k, by omega, hshown⟩
    · have hmore := h.more n (by omega)
      have hstep := hmono n (by omega)
      rcases Nat.lt_or_ge (p n) (n * size + size) with hpage | hbehind
      · exact Or.inl ⟨n, Nat.lt_succ_self n, mem_cutPage (hp n (by omega)) hrest hpage (by omega)⟩
      · right
        rw [Nat.succ_mul]
        omega

/-- **Shown, or beyond the last count**, unless a page finds it further in front than the page before. -/
theorem shown_or_overtaken {p : ℕ → ℕ} (h : Turns size last count) (hp : ∀ n ≤ last, (l n)[p n]? = some a)
    (hmono : ∀ n < last, p n ≤ p (n + 1)) :
    (∃ n ≤ last, a ∈ cutPage size n (count n) (l n)) ∨ a ∈ (l last).drop (count last) := by
  rcases shown_at h hp hmono (Nat.le_refl last) with ⟨n, hn, hshown⟩ | hrest
  · exact Or.inl ⟨n, hn.le, hshown⟩
  · have hdone := h.done
    rcases Nat.lt_or_ge (p last) (count last) with hcounted | hbeyond
    · exact Or.inl ⟨last, Nat.le_refl last, mem_cutPage (hp last (Nat.le_refl last)) hrest (by omega) hcounted⟩
    · right
      apply List.mem_of_getElem? (i := p last - count last)
      rw [List.getElem?_drop, Nat.add_sub_cancel' hbeyond]
      exact hp last (Nat.le_refl last)

end Visit

/-! ## Sorted lists -/

section Sorted

variable {κ : Type} [LinearOrder κ] {key : α → κ} {reverse : Bool} {l l' : List α}

/-- **A sorted list grows** with the list, where no two elements have one key. -/
theorem sortOn_sublist (h : l.Subperm l') (hties : (l'.map key).Nodup) :
    (sortOn key reverse l).Sublist (sortOn key reverse l') := by
  have hsub : (sortOn key reverse l).Subperm (sortOn key reverse l') :=
    (perm_sortOn l).subperm.trans (h.trans (perm_sortOn l').symm.subperm)
  obtain ⟨m, hperm, hm⟩ := hsub
  have hkeys : ∀ a b, a ∈ m → b ∈ sortOn key reverse l → Ordered key reverse a b → Ordered key reverse b a → a = b := by
    intro a b ha hb hab hba
    have ha' : a ∈ l' := mem_sortOn.1 (hm.subset ha)
    have hb' : b ∈ l' := h.subset (mem_sortOn.1 hb)
    exact List.inj_on_of_nodup_map hties ha' hb' (ordered_both hab hba)
  have heq : m = sortOn key reverse l :=
    List.Perm.eq_of_pairwise hkeys (List.Pairwise.sublist hm (sorted_sortOn l')) (sorted_sortOn l) hperm
  rw [← heq]
  exact hm

theorem sublist_of_before {i : ℕ} {a b : α} (hi : l[i]? = some a) (hb : b ∈ l.take i) : [b, a].Sublist l := by
  rw [← List.take_append_drop i l]
  apply List.Sublist.append (List.singleton_sublist.2 hb)
  apply List.singleton_sublist.2
  apply List.mem_of_getElem? (i := 0)
  rw [List.getElem?_drop, Nat.add_zero]
  exact hi

/-- **Further in front** an element comes only when one that stood before it goes. -/
theorem position_le {i i' : ℕ} {a : α} (hsorted : l.Pairwise (Ordered key reverse))
    (hsorted' : l'.Pairwise (Ordered key reverse)) (hties : (l.map key).Nodup) (hties' : (l'.map key).Nodup)
    (hi : l[i]? = some a) (hi' : l'[i']? = some a) (hstay : ∀ b ∈ l.take i, b ∈ l') : i ≤ i' := by
  obtain ⟨hlt, hat⟩ := List.getElem?_eq_some_iff.1 hi
  obtain ⟨hlt', hat'⟩ := List.getElem?_eq_some_iff.1 hi'
  have hnodup : l.Nodup := List.Nodup.of_map key hties
  have hsub : l.take i ⊆ l'.take i' := by
    intro b hb
    obtain ⟨k, hk, hbk⟩ := List.mem_take_iff_getElem.1 hb
    obtain ⟨k', hk', hbk'⟩ := List.getElem_of_mem (hstay b hb)
    have hki : k < i := by omega
    have hba : Ordered key reverse b a := by
      rw [← hbk, ← hat]
      exact List.pairwise_iff_getElem.1 hsorted k i _ hlt hki
    have hne : b ≠ a := by
      intro he
      rw [← hbk, ← hat] at he
      exact absurd ((List.Nodup.getElem_inj_iff hnodup).1 he) (by omega)
    rcases Nat.lt_or_ge k' i' with hbefore | hafter
    · exact List.mem_take_iff_getElem.2 ⟨k', by omega, hbk'⟩
    · -- behind `a` it would have the key of `a`
      have hlast : i' < k' := by
        refine lt_of_le_of_ne hafter fun he => hne ?_
        subst he
        rw [← hbk', hat']
      have hab : Ordered key reverse a b := by
        rw [← hbk', ← hat']
        exact List.pairwise_iff_getElem.1 hsorted' i' k' hlt' hk' hlast
      have hmem : a ∈ l' := List.mem_of_getElem? hi'
      exact absurd (List.inj_on_of_nodup_map hties' (hstay b hb) hmem (ordered_both hba hab)) hne
  have hlength := (List.Nodup.subperm (hnodup.sublist (List.take_sublist i l)) hsub).length_le
  rw [List.length_take, List.length_take] at hlength
  omega

end Sorted

end GigMarketplace.Core
