/-
Reading an ordered list page by page, where each page is a query of its own.

A query orders by a key and leaves the order of equal keys open, so two queries may order the same elements
differently. Page `n`, counted from 0, is a slice of the reading that its own query gives.

`before` and `upTo` bound the positions at which an element can stand in any such reading: those before it by key, and
those that do not come after it. The ties of an element are unsplit if all these positions lie on one page.

Results:
- `pages_complete_iff`: whatever each query does with ties, the pages hold every element exactly once, iff no page
  boundary runs through a group of ties;
- `query_pages_iff`: the same of a query on rows that the engine reads in any order;
- `pages_ordered`: the pages one after another are in the order of the key in any case.
-/
import Mathlib.Data.List.Flatten
import Mathlib.Data.List.Count
import Mathlib.Data.List.Nodup
import Mathlib.Data.List.Perm.Basic
import GigMarketplace.Core.Sorting

namespace GigMarketplace.Core

variable {α : Type}

/-! ## Slices -/

/-- page `n` of pages of `size` elements -/
def slice (size n : ℕ) (l : List α) : List α := (l.drop (n * size)).take size

/-- `ceil(max(1, count) / size)`: nothing is one empty page -/
def numPages (size count : ℕ) : ℕ := (max 1 count + size - 1) / size

section Slices

variable {size count : ℕ} {l : List α}

theorem lt_numPages_iff (hsize : 0 < size) {n : ℕ} : n < numPages size count ↔ n * size < max 1 count := by
  unfold numPages
  rw [Nat.lt_div_iff_mul_lt hsize]
  omega

theorem length_le_pages (hsize : 0 < size) : count ≤ numPages size count * size := by
  have hnot : ¬ numPages size count < numPages size count := lt_irrefl _
  rw [lt_numPages_iff hsize] at hnot
  omega

/-- the pages of one reading are the reading -/
theorem flatMap_slice (size n : ℕ) (l : List α) :
    (List.range n).flatMap (fun k => slice size k l) = l.take (n * size) := by
  induction n with
  | zero => simp
  | succ n ih =>
    rw [List.range_succ, List.flatMap_append, ih, List.flatMap_singleton, Nat.succ_mul, slice, List.take_add]

theorem mem_slice {n i : ℕ} (hi : i < l.length) (hfirst : n * size ≤ i) (hlast : i < n * size + size) :
    l[i] ∈ slice size n l := by
  rw [slice, List.mem_take_iff_getElem]
  refine ⟨i - n * size, by rw [List.length_drop]; omega, ?_⟩
  rw [List.getElem_drop]
  congr 1
  omega

/-- what stands on page `n`, if that can be told from the element -/
theorem filter_eq_slice {p : α → Bool} {n : ℕ}
    (h : ∀ i (hi : i < l.length), p l[i] ↔ n * size ≤ i ∧ i < n * size + size) : l.filter p = slice size n l := by
  have hparts : l = l.take (n * size) ++ (slice size n l ++ l.drop (n * size + size)) := by
    rw [slice, ← List.drop_drop, List.take_append_drop, List.take_append_drop]
  have hfront : (l.take (n * size)).filter p = [] := by
    rw [List.filter_eq_nil_iff]
    intro a ha
    obtain ⟨i, hi, rfl⟩ := List.mem_take_iff_getElem.1 ha
    rw [h i (by omega)]
    omega
  have hpage : (slice size n l).filter p = slice size n l := by
    rw [List.filter_eq_self]
    intro a ha
    obtain ⟨i, hi, rfl⟩ := List.mem_take_iff_getElem.1 ha
    rw [List.length_drop] at hi
    rw [List.getElem_drop, h _ (by omega)]
    omega
  have hback : (l.drop (n * size + size)).filter p = [] := by
    rw [List.filter_eq_nil_iff]
    intro a ha
    obtain ⟨i, hi, rfl⟩ := List.mem_drop_iff_getElem.1 ha
    rw [h _ (by omega)]
    omega
  conv_lhs => rw [hparts]
  rw [List.filter_append, List.filter_append, hfront, hpage, hback, List.nil_append, List.append_nil]

/-- a list cut up by a number of each element -/
theorem perm_flatMap_filter (g : α → ℕ) (m : List α) (n : ℕ) :
    ((List.range n).flatMap fun k => m.filter fun a => g a = k).Perm (m.filter fun a => g a < n) := by
  induction n with
  | zero => simp
  | succ n ih =>
    rw [List.range_succ, List.flatMap_append, List.flatMap_singleton]
    refine (ih.append_right _).trans ?_
    have hsplit := List.filter_append_perm (fun a => g a < n) (m.filter fun a => g a < n + 1)
    rw [List.filter_filter, List.filter_filter] at hsplit
    refine List.Perm.trans (.of_eq ?_) hsplit
    congr 1
    · refine List.filter_congr fun a _ => ?_
      rw [Bool.eq_iff_iff]
      simp only [Bool.and_eq_true, decide_eq_true_eq]
      omega
    · refine List.filter_congr fun a _ => ?_
      rw [Bool.eq_iff_iff]
      simp only [Bool.and_eq_true, Bool.not_eq_true', decide_eq_true_eq, decide_eq_false_iff_not]
      omega

/-- the rows may be read in such an order that the filter gives a chosen order -/
theorem exists_filter_eq {p : α → Prop} [DecidablePred p] {rows : List α} (h : l.Perm (rows.filter fun a => p a)) :
    ∃ rows' : List α, rows'.Perm rows ∧ (rows'.filter fun a => p a) = l := by
  refine ⟨l ++ rows.filter fun a => ¬ p a, ?_, ?_⟩
  · refine (h.append_right _).trans ?_
    simp only [decide_not]
    exact List.filter_append_perm (fun a => p a) rows
  · have hin : (l.filter fun a => p a) = l := by
      rw [List.filter_eq_self]
      exact fun a ha => (List.mem_filter.1 (h.mem_iff.1 ha)).2
    have hout : ((rows.filter fun a => ¬ p a).filter fun a => p a) = [] := by
      rw [List.filter_eq_nil_iff]
      intro a ha
      simpa using (List.mem_filter.1 ha).2
    rw [List.filter_append, hin, hout, List.append_nil]

end Slices

/-! ## Positions -/

section Ties

variable {κ : Type} [LinearOrder κ] {key : α → κ} {reverse : Bool} {size : ℕ} {l m : List α} {a b : α}

/-- how many come before `a` by their keys -/
def before (key : α → κ) (reverse : Bool) (m : List α) (a : α) : ℕ := m.countP fun b => ¬ Ordered key reverse a b

/-- how many do not come after `a` -/
def upTo (key : α → κ) (reverse : Bool) (m : List α) (a : α) : ℕ := m.countP fun b => Ordered key reverse b a

/-- no page boundary between two elements with one key -/
def UnsplitTies (key : α → κ) (reverse : Bool) (size : ℕ) (m : List α) : Prop :=
  ∀ a ∈ m, before key reverse m a / size = (upTo key reverse m a - 1) / size

theorem ordered_refl (a : α) : Ordered key reverse a a := by
  cases reverse <;> exact le_refl (key a)

theorem ordered_both (hab : Ordered key reverse a b) (hba : Ordered key reverse b a) : key a = key b := by
  cases reverse
  · exact le_antisymm (α := κ) hab hba
  · exact le_antisymm (α := κ) hba hab

theorem before_perm (h : l.Perm m) (a : α) : before key reverse l a = before key reverse m a := h.countP_eq _

theorem upTo_perm (h : l.Perm m) (a : α) : upTo key reverse l a = upTo key reverse m a := h.countP_eq _

/-- a property that holds nowhere from position `i` on is counted before it -/
theorem countP_le_of_drop {p : α → Bool} {i : ℕ} (h : ∀ b ∈ l.drop i, ¬ p b) : l.countP p ≤ i := by
  have hdrop : (l.drop i).countP p = 0 := List.countP_eq_zero.2 h
  conv_lhs => rw [← List.take_append_drop i l]
  rw [List.countP_append, hdrop, Nat.add_zero]
  exact List.countP_le_length.trans (List.length_take_le i l)

/-- a property that holds at every position before `i` is counted so often -/
theorem le_countP_of_take {p : α → Bool} {i : ℕ} (hi : i ≤ l.length) (h : ∀ b ∈ l.take i, p b) : i ≤ l.countP p := by
  have htake : (l.take i).countP p = (l.take i).length := List.countP_eq_length.2 h
  have hsub : (l.take i).countP p ≤ l.countP p := (List.take_sublist i l).countP_le
  rw [htake, List.length_take, min_eq_left hi] at hsub
  exact hsub

theorem ordered_getElem (hl : l.Pairwise (Ordered key reverse)) {i j : ℕ} (hi : i < l.length) (hj : j < l.length)
    (hij : i ≤ j) : Ordered key reverse l[i] l[j] := by
  obtain rfl | hlt := hij.eq_or_lt
  · exact ordered_refl _
  · exact List.pairwise_iff_getElem.1 hl i j hi hj hlt

theorem before_le (hl : l.Pairwise (Ordered key reverse)) {i : ℕ} (hi : i < l.length) :
    before key reverse l l[i] ≤ i := by
  refine countP_le_of_drop fun b hb => ?_
  obtain ⟨j, hj, rfl⟩ := List.mem_drop_iff_getElem.1 hb
  simpa using ordered_getElem hl hi (by omega) (Nat.le_add_right i j)

theorem lt_upTo (hl : l.Pairwise (Ordered key reverse)) {i : ℕ} (hi : i < l.length) : i < upTo key reverse l l[i] := by
  refine le_countP_of_take (i := i + 1) hi fun b hb => ?_
  obtain ⟨j, hj, rfl⟩ := List.mem_take_iff_getElem.1 hb
  simpa using ordered_getElem hl (by omega) hi (by omega : j ≤ i)

theorem sorted_of_keys (h : l.map key = m.map key) (hl : l.Pairwise (Ordered key reverse)) :
    m.Pairwise (Ordered key reverse) := by
  have hmap : ∀ l : List α, l.Pairwise (Ordered key reverse) ↔ (l.map key).Pairwise (Ordered id reverse) := by
    intro l
    rw [List.pairwise_map]
    rfl
  rw [hmap, ← h, ← hmap]
  exact hl

/-- the positions between `before` and `upTo` are those of the ties -/
theorem tie_between (hl : l.Pairwise (Ordered key reverse)) {i : ℕ} (hi : i < l.length)
    (hbefore : before key reverse l a ≤ i) (hupTo : i < upTo key reverse l a) : key l[i] = key a := by
  refine @ordered_both _ _ _ key reverse _ _ ?_ ?_
  · by_contra hnot
    -- `a` comes before `l[i]`, so nothing from `i` on is counted
    refine absurd hupTo (not_lt.2 (countP_le_of_drop fun b hb => ?_))
    obtain ⟨j, hj, rfl⟩ := List.mem_drop_iff_getElem.1 hb
    have hij := ordered_getElem hl hi (by omega) (Nat.le_add_right i j)
    simpa using fun h => hnot (IsTrans.trans _ _ _ hij h)
  · by_contra hnot
    refine absurd (le_countP_of_take (i := i + 1) hi fun b hb => ?_) (not_le.2 (Nat.lt_succ_of_le hbefore))
    obtain ⟨j, hj, rfl⟩ := List.mem_take_iff_getElem.1 hb
    have hji := ordered_getElem hl (by omega) hi (by omega : j ≤ i)
    simpa using fun h => hnot (IsTrans.trans _ _ _ h hji)

/-! ## All pages -/

/-- a reading: all elements, in the order of the key -/
def Reading (key : α → κ) (reverse : Bool) (m l : List α) : Prop := l.Perm m ∧ l.Pairwise (Ordered key reverse)

variable {reading : ℕ → List α}

/-- a page holds the elements whose first position is on it -/
theorem slice_perm (hsize : 0 < size) (hties : UnsplitTies key reverse size m) (hl : Reading key reverse m l) (n : ℕ) :
    (slice size n l).Perm (m.filter fun a => before key reverse m a / size = n) := by
  have hfilter : (l.filter fun a => before key reverse m a / size = n) = slice size n l := by
    refine filter_eq_slice fun i hi => ?_
    have hfirst := before_le hl.2 hi
    have hlast := lt_upTo hl.2 hi
    rw [before_perm hl.1] at hfirst
    rw [upTo_perm hl.1] at hlast
    have hpage : i / size = before key reverse m l[i] / size := by
      refine le_antisymm ?_ (Nat.div_le_div_right hfirst)
      rw [hties l[i] (hl.1.mem_iff.1 (List.getElem_mem hi))]
      exact Nat.div_le_div_right (Nat.le_sub_one_of_lt hlast)
    rw [decide_eq_true_iff, ← hpage, Nat.div_eq_iff hsize]
    omega
  rw [← hfilter]
  exact hl.1.filter _

theorem pages_of_unsplit (hsize : 0 < size) (hties : UnsplitTies key reverse size m)
    (hreading : ∀ n, Reading key reverse m (reading n)) :
    ((List.range (numPages size m.length)).flatMap fun n => slice size n (reading n)).Perm m := by
  refine (List.Perm.flatMap_left _ fun n _ => slice_perm hsize hties (hreading n) n).trans ?_
  refine (perm_flatMap_filter _ m _).trans (.of_eq ?_)
  rw [List.filter_eq_self]
  intro a ha
  have hlt : before key reverse m a < m.length := by
    refine List.countP_lt_length_iff.2 ⟨a, ha, ?_⟩
    simpa using ordered_refl a
  rw [decide_eq_true_iff, Nat.div_lt_iff_lt_mul hsize]
  exact hlt.trans_le (length_le_pages hsize)

/-- a group of ties on two pages has two neighbours with a page boundary between them -/
theorem split_boundary (hsize : 0 < size) (hl : Reading key reverse m l) (ha : a ∈ m)
    (hne : before key reverse m a / size ≠ (upTo key reverse m a - 1) / size) :
    ∃ n i, n * size ≤ i ∧ (n + 1) * size = i + 1 ∧ ∃ (hi : i < l.length) (hnext : i + 1 < l.length),
      key l[i] = key l[i + 1] := by
  rw [← before_perm hl.1, ← upTo_perm hl.1] at hne
  have hpos : before key reverse l a < upTo key reverse l a := by
    obtain ⟨i, hi, rfl⟩ := List.getElem_of_mem (hl.1.mem_iff.2 ha)
    exact (before_le hl.2 hi).trans_lt (lt_upTo hl.2 hi)
  have hupTo : upTo key reverse l a ≤ l.length := List.countP_le_length
  have hfirst : before key reverse l a / size * size ≤ before key reverse l a := Nat.div_mul_le_self _ _
  have hlast : before key reverse l a < (before key reverse l a / size + 1) * size := by
    rw [Nat.mul_comm]
    exact Nat.lt_mul_div_succ _ hsize
  -- the ties begin on page `n`; they do not end there
  generalize before key reverse l a / size = n at hne hfirst hlast
  have hbeyond : (n + 1) * size < upTo key reverse l a := by
    by_contra hle
    refine hne (le_antisymm ((Nat.le_div_iff_mul_le hsize).2 (by omega)) ?_)
    have hpage : (upTo key reverse l a - 1) / size < n + 1 := (Nat.div_lt_iff_lt_mul hsize).2 (by omega)
    exact Nat.le_of_lt_succ hpage
  obtain ⟨i, hi⟩ : ∃ i, (n + 1) * size = i + 1 := ⟨(n + 1) * size - 1, by omega⟩
  have hni : n * size ≤ i := by
    rw [Nat.succ_mul] at hi
    omega
  have h0 : i < l.length := by omega
  have h1 : i + 1 < l.length := by omega
  refine ⟨n, i, hni, hi, h0, h1, ?_⟩
  have htie : key l[i] = key a := tie_between hl.2 h0 (by omega) (by omega)
  have htie' : key l[i + 1] = key a := tie_between hl.2 h1 (by omega) (by omega)
  rw [htie, htie']

/-- two neighbours with one key may be read the other way round -/
theorem exchange (hl : Reading key reverse m l) {i : ℕ} (hi : i < l.length) (hnext : i + 1 < l.length)
    (htie : key l[i] = key l[i + 1]) :
    ∃ l', Reading key reverse m l' ∧ ∃ h : i + 1 < l'.length, l'[i + 1] = l[i] := by
  have hparts : l = l.take i ++ l[i] :: l[i + 1] :: l.drop (i + 2) := by
    rw [← List.drop_eq_getElem_cons hnext, ← List.drop_eq_getElem_cons hi, List.take_append_drop]
  have hperm : (l.take i ++ l[i + 1] :: l[i] :: l.drop (i + 2)).Perm l := by
    conv_rhs => rw [hparts]
    exact (List.Perm.swap _ _ _).append_left _
  refine ⟨_, ⟨hperm.trans hl.1, ?_⟩, by rw [hperm.length_eq]; exact hnext, ?_⟩
  · refine sorted_of_keys ?_ hl.2
    conv_lhs => rw [hparts]
    rw [List.map_append, List.map_append, List.map_cons, List.map_cons, List.map_cons, List.map_cons, htie]
  · rw [List.getElem_append_right (by simp)]
    simp [hi.le]

/-- what stands before the boundary is read a second time behind it -/
theorem pages_of_split (hsize : 0 < size) (hm : m.Nodup) (hsplit : ¬ UnsplitTies key reverse size m) :
    ∃ reading : ℕ → List α, (∀ n, Reading key reverse m (reading n)) ∧
      ¬ ((List.range (numPages size m.length)).flatMap fun n => slice size n (reading n)).Perm m := by
  obtain ⟨a, ha, hne⟩ : ∃ a ∈ m, before key reverse m a / size ≠ (upTo key reverse m a - 1) / size := by
    simpa [UnsplitTies] using hsplit
  have hl : Reading key reverse m (sortOn key reverse m) := ⟨perm_sortOn m, sorted_sortOn m⟩
  obtain ⟨k, i, hki, hboundary, hi, hnext, htie⟩ := split_boundary hsize hl ha hne
  obtain ⟨l', hl', hnext', hsame⟩ := exchange hl hi hnext htie
  refine ⟨fun n => if n = k + 1 then l' else sortOn key reverse m, fun n => ?_, fun hpages => ?_⟩
  · dsimp only
    split_ifs
    · exact hl'
    · exact hl
  · have hlast : k + 1 < numPages size m.length := by
      rw [lt_numPages_iff hsize, ← hl.1.length_eq]
      omega
    have hnodup := (List.nodup_flatMap.1 (hpages.nodup_iff.2 hm)).2
    have hdisjoint := List.pairwise_iff_getElem.1 hnodup k (k + 1) (by simp; omega) (by simpa using hlast)
      (Nat.lt_succ_self k)
    simp only [List.getElem_range, Function.onFun, if_neg (Nat.ne_of_lt (Nat.lt_succ_self k)), if_true] at hdisjoint
    have hbefore : (sortOn key reverse m)[i] ∈ slice size k (sortOn key reverse m) := by
      rw [Nat.succ_mul] at hboundary
      exact mem_slice hi hki (by omega)
    have hbehind : l'[i + 1] ∈ slice size (k + 1) l' := mem_slice hnext' hboundary.le (by omega)
    exact hdisjoint hbefore (hsame ▸ hbehind)

/-- **Page by page, every element exactly once**, whatever the queries do with ties: exactly if no page boundary runs
through a group of ties. -/
theorem pages_complete_iff (hsize : 0 < size) (hm : m.Nodup) :
    (∀ reading : ℕ → List α, (∀ n, Reading key reverse m (reading n)) →
      ((List.range (numPages size m.length)).flatMap fun n => slice size n (reading n)).Perm m) ↔
      UnsplitTies key reverse size m := by
  constructor
  · intro hall
    by_contra hsplit
    obtain ⟨reading, hreading, hpages⟩ := pages_of_split hsize hm hsplit
    exact hpages (hall reading hreading)
  · exact fun hties reading hreading => pages_of_unsplit hsize hties hreading

/-- **The pages of a query** that is evaluated once for each page. What it returns are the readings of `m`, and it
returns every one of them where the engine reads the rows in a suitable order. -/
theorem query_pages_iff {β : Type} {query : List β → List α} {rows : List β} (hsize : 0 < size) (hm : m.Nodup)
    (hreads : ∀ read, read.Perm rows → Reading key reverse m (query read))
    (hall : ∀ l, Reading key reverse m l → ∃ read, read.Perm rows ∧ query read = l) :
    (∀ reads : ℕ → List β, (∀ n, (reads n).Perm rows) →
      ((List.range (numPages size m.length)).flatMap fun n => slice size n (query (reads (n + 1)))).Perm m) ↔
      UnsplitTies key reverse size m := by
  rw [← pages_complete_iff hsize hm]
  constructor
  · intro hpages reading hreading
    choose read hperm hquery using fun n => hall (reading n) (hreading n)
    -- page `n + 1` is read in the order that gives the `n`-th reading
    have hshown := hpages (fun n => read (n - 1)) fun n => hperm (n - 1)
    simpa only [Nat.add_sub_cancel, hquery] using hshown
  · exact fun hpages reads hperm => hpages _ fun n => hreads _ (hperm (n + 1))

/-- the keys on the pages do not depend on the readings -/
theorem pages_ordered (hreading : ∀ n, Reading key reverse m (reading n)) (total : ℕ) :
    ((List.range total).flatMap fun n => slice size n (reading n)).Pairwise (Ordered key reverse) := by
  have hkeys : ∀ n, (reading n).map key = (sortOn key reverse m).map key := fun n =>
    ((upToTies_iff (sorted_sortOn m)).2 ⟨(hreading n).1.trans (perm_sortOn m).symm, (hreading n).2⟩).2
  refine sorted_of_keys (l := (sortOn key reverse m).take (total * size)) ?_ (List.Pairwise.take (sorted_sortOn m))
  rw [← flatMap_slice, List.map_flatMap, List.map_flatMap]
  refine List.flatMap_congr fun n _ => ?_
  rw [slice, slice, List.map_take, List.map_take, List.map_drop, List.map_drop, hkeys]

end Ties

end GigMarketplace.Core
