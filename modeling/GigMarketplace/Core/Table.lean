/-
Tables keyed by a primary key, as lists of rows in the order of insertion.

A `Table` carries the uniqueness of its keys as a field, so a table with two rows of one key cannot be built. The
operations are the ones a database gives for one row: `find` (SELECT by key), `insert` (INSERT, nothing happens when
the key is taken: the caller reports the violation) and `update` (UPDATE of columns of the row with a key; a column
update never changes the key); `delete` removes the rows with a property. `sum` adds a quantity over all rows.

Results: what `find` returns after each operation (`find_insert`, `find_update`, `find_delete`), how each operation
changes a sum (`sum_insert`, `sum_update`), and membership (`mem_insert`, `mem_update`). Nothing here names a program.
-/
import Mathlib.Algebra.BigOperators.Group.List.Basic
import Mathlib.Algebra.Order.BigOperators.Group.List
import Mathlib.Data.List.Nodup
import Mathlib.Tactic.Abel

namespace GigMarketplace.Core

/-- a row type with its primary key; `withPk` is the row with the key column set -/
class Keyed (R : Type) (K : outParam Type) where
  pk : R → K
  withPk : R → K → R
  pk_withPk : ∀ r k, pk (withPk r k) = k
  withPk_pk : ∀ r, withPk r (pk r) = r

export Keyed (pk withPk pk_withPk withPk_pk)

attribute [simp] pk_withPk withPk_pk

structure Table (R : Type) {K : Type} [Keyed R K] where
  rows : List R
  nodup : (rows.map pk).Nodup

namespace Table

variable {R K : Type} [Keyed R K] [DecidableEq K]

omit [DecidableEq K] in
theorem ext {s t : Table R} (h : s.rows = t.rows) : s = t := by
  cases s
  cases t
  cases h
  rfl

instance [DecidableEq R] : DecidableEq (Table R) := fun s t =>
  decidable_of_iff (s.rows = t.rows) ⟨ext, fun h => by rw [h]⟩

def empty : Table R := ⟨[], List.nodup_nil⟩

def find (t : Table R) (k : K) : Option R := t.rows.find? (fun r => pk r = k)

theorem pk_of_find {t : Table R} {k : K} {r : R} (h : t.find k = some r) : pk r = k := by
  simpa using List.find?_some h

theorem mem_of_find {t : Table R} {k : K} {r : R} (h : t.find k = some r) : r ∈ t.rows :=
  List.mem_of_find?_eq_some h

theorem find_eq_none {t : Table R} {k : K} : t.find k = none ↔ ∀ r ∈ t.rows, pk r ≠ k := by
  simp [find, List.find?_eq_none]

theorem find_of_mem {t : Table R} {r : R} (h : r ∈ t.rows) : t.find (pk r) = some r := by
  cases hf : t.find (pk r) with
  | none => exact absurd rfl (find_eq_none.1 hf r h)
  | some r' =>
    have := List.inj_on_of_nodup_map t.nodup (mem_of_find hf) h (pk_of_find hf)
    rw [this]

@[simp] theorem find_empty (k : K) : (empty : Table R).find k = none := rfl

/-! ## Insertion -/

/-- INSERT: the new row is the last one; a row whose key is taken leaves the table as it is -/
def insert (t : Table R) (r : R) : Table R :=
  if h : t.find (pk r) = none then
    ⟨t.rows ++ [r], by
      rw [List.map_append, List.map_singleton, List.nodup_append_comm, List.singleton_append, List.nodup_cons]
      refine ⟨fun hm => ?_, t.nodup⟩
      obtain ⟨r', hr', e⟩ := List.mem_map.1 hm
      exact find_eq_none.1 h r' hr' e⟩
  else t

theorem rows_insert {t : Table R} {r : R} (h : t.find (pk r) = none) : (t.insert r).rows = t.rows ++ [r] := by
  simp [insert, h]

theorem find_insert {t : Table R} {r : R} (k : K) :
    (t.insert r).find k = if pk r = k then some ((t.find k).getD r) else t.find k := by
  unfold insert
  split_ifs with h hk hk
  · subst hk
    simp only [find] at h ⊢
    rw [List.find?_append, h]
    simp
  · simp [find, List.find?_append, hk]
  · subst hk
    obtain ⟨r', hr'⟩ := Option.ne_none_iff_exists'.1 h
    simp [hr']
  · rfl

theorem mem_insert {t : Table R} {r r' : R} (h : t.find (pk r) = none) :
    r' ∈ (t.insert r).rows ↔ r' ∈ t.rows ∨ r' = r := by
  simp [rows_insert h]

/-! ## Update of one row -/

/-- UPDATE of the row with key `k`: `f` sets columns, the key stays `k` -/
def update (t : Table R) (k : K) (f : R → R) : Table R where
  rows := t.rows.map fun r => if pk r = k then withPk (f r) k else r
  nodup := by
    have e : (t.rows.map fun r => if pk r = k then withPk (f r) k else r).map pk = t.rows.map pk := by
      rw [List.map_map]
      refine List.map_congr_left fun r _ => ?_
      simp only [Function.comp]
      split_ifs with h
      · rw [pk_withPk, h]
      · rfl
    rw [e]; exact t.nodup

theorem find_update (t : Table R) (k k' : K) (f : R → R) :
    (t.update k f).find k' = if k = k' then (t.find k').map (fun r => withPk (f r) k) else t.find k' := by
  have e : ∀ r : R, pk (if pk r = k then withPk (f r) k else r) = pk r := by
    intro r; split_ifs with h
    · rw [pk_withPk, h]
    · rfl
  simp only [find, update, List.find?_map]
  simp only [Function.comp_def, e]
  split_ifs with hk
  · subst hk
    cases hf : t.rows.find? (fun r => pk r = k) with
    | none => rfl
    | some r => simp [show pk r = k by simpa using List.find?_some hf]
  · cases hf : t.rows.find? (fun r => pk r = k') with
    | none => rfl
    | some r =>
      have : pk r = k' := by simpa using List.find?_some hf
      simp [this, Ne.symm hk]

theorem find_update_ne {t : Table R} {k k' : K} {f : R → R} (h : k ≠ k') : (t.update k f).find k' = t.find k' := by
  rw [find_update, if_neg h]

theorem isSome_find_update (t : Table R) (k k' : K) (f : R → R) :
    ((t.update k f).find k').isSome = (t.find k').isSome := by
  rw [find_update]
  split_ifs
  · rw [Option.isSome_map]
  · rfl

/-- an update that does not touch the key column -/
theorem find_update_self {t : Table R} {k : K} {f : R → R} {r : R} (h : t.find k = some r) (hf : pk (f r) = pk r) :
    (t.update k f).find k = some (f r) := by
  rw [find_update, if_pos rfl, h, Option.map_some, ← pk_of_find h, ← hf, withPk_pk]

theorem mem_update {t : Table R} {k : K} {f : R → R} {r : R} (h : t.find k = some r) (hf : pk (f r) = pk r) (r' : R) :
    r' ∈ (t.update k f).rows ↔ r' = f r ∨ (r' ∈ t.rows ∧ pk r' ≠ k) := by
  constructor
  · intro hm
    have hr' := find_of_mem hm
    by_cases hk : k = pk r'
    · rw [← hk, find_update_self h hf] at hr'
      exact Or.inl (Option.some.inj hr').symm
    · rw [find_update_ne hk] at hr'
      exact Or.inr ⟨mem_of_find hr', Ne.symm hk⟩
  · intro hr
    rcases hr with rfl | ⟨hm, hk⟩
    · exact mem_of_find (find_update_self h hf)
    · have := find_of_mem hm
      rw [← find_update_ne (f := f) (Ne.symm hk)] at this
      exact mem_of_find this

/-- an update replaces one row in place -/
theorem rows_update {t : Table R} {k : K} {f : R → R} {r : R} (h : t.find k = some r) (hf : pk (f r) = pk r) :
    ∃ l₁ l₂, t.rows = l₁ ++ r :: l₂ ∧ (t.update k f).rows = l₁ ++ f r :: l₂ := by
  obtain ⟨l₁, l₂, hl⟩ := List.append_of_mem (mem_of_find h)
  have hk : pk r = k := pk_of_find h
  have hn := t.nodup
  rw [hl, List.map_append, List.map_cons, List.nodup_append_comm, List.cons_append, List.nodup_cons, hk] at hn
  -- no other row has the key `k`
  have hkeep : ∀ l : List R, (∀ x ∈ l, x ∈ l₁ ∨ x ∈ l₂) →
      (l.map fun r => if pk r = k then withPk (f r) k else r) = l := fun l hx => by
    conv_rhs => rw [← List.map_id l]
    refine List.map_congr_left fun x hxl => if_neg fun he => hn.1 ?_
    rw [← he, ← List.map_append]
    exact List.mem_map_of_mem (List.mem_append.2 (hx x hxl).symm)
  refine ⟨l₁, l₂, hl, ?_⟩
  simp only [update, hl, List.map_append, List.map_cons, hkeep l₁ fun x hx => Or.inl hx,
    hkeep l₂ fun x hx => Or.inr hx, hk, if_true]
  rw [← hk, ← hf, withPk_pk]

/-- setting columns of a row just inserted -/
theorem update_insert_self {t : Table R} {r : R} {f : R → R} (h : t.find (pk r) = none) (hf : pk (f r) = pk r) :
    (t.insert r).update (pk r) f = t.insert (f r) := by
  have hrows : ((t.insert r).update (pk r) f).rows = (t.insert (f r)).rows := by
    have hkeep : (t.rows.map fun x => if pk x = pk r then withPk (f x) (pk r) else x) = t.rows := by
      conv_rhs => rw [← List.map_id t.rows]
      exact List.map_congr_left fun x hx => if_neg (find_eq_none.1 h x hx)
    have hlast : withPk (f r) (pk r) = f r := by rw [← hf, withPk_pk]
    simp only [update, rows_insert h, rows_insert (hf.symm ▸ h : t.find (pk (f r)) = none), List.map_append, hkeep,
      List.map_cons, List.map_nil, if_true, hlast]
  exact ext hrows

/-! ## Deletion -/

/-- DELETE of the rows with a property -/
def delete (t : Table R) (p : R → Bool) : Table R :=
  ⟨t.rows.filter fun r => !p r, t.nodup.sublist (List.Sublist.map pk List.filter_sublist)⟩

theorem find_delete (t : Table R) (p : R → Bool) (k : K) :
    (t.delete p).find k = (t.find k).filter fun r => !p r := by
  cases hf : t.find k with
  | none =>
    rw [find_eq_none] at hf
    exact find_eq_none.2 fun r hr => hf r (List.mem_of_mem_filter hr)
  | some r =>
    have hk := pk_of_find hf
    by_cases hp : p r = true
    · rw [Option.filter_some_neg (by simp [hp])]
      refine find_eq_none.2 fun r' hr' hk' => ?_
      -- the one row with this key was removed
      have heq : r' = r := by
        have hf' := find_of_mem (List.mem_of_mem_filter hr')
        rw [hk', hf] at hf'
        exact (Option.some.inj hf').symm
      have hkept := (List.mem_filter.1 hr').2
      rw [heq, hp] at hkept
      cases hkept
    · rw [Option.filter_some_pos (by simpa using hp)]
      have hmem : r ∈ (t.delete p).rows := List.mem_filter.2 ⟨mem_of_find hf, by simpa using hp⟩
      rw [← hk]
      exact find_of_mem hmem

/-! ## Sums over the rows -/

section Sum

variable {M : Type} [AddCommGroup M]

def sum (t : Table R) (g : R → M) : M := (t.rows.map g).sum

omit [DecidableEq K] in
@[simp] theorem sum_empty (g : R → M) : (empty : Table R).sum g = 0 := rfl

theorem sum_insert {t : Table R} {r : R} (g : R → M) (h : t.find (pk r) = none) :
    (t.insert r).sum g = t.sum g + g r := by
  simp [sum, rows_insert h]

omit [DecidableEq K] in
theorem sum_congr {t : Table R} {g g' : R → M} (h : ∀ r ∈ t.rows, g r = g' r) : t.sum g = t.sum g' := by
  unfold sum
  rw [List.map_congr_left h]

omit [DecidableEq K] in
theorem sum_add (t : Table R) (g g' : R → M) : t.sum (fun r => g r + g' r) = t.sum g + t.sum g' :=
  List.sum_map_add

/-- **An update changes a sum by the new row minus the old row.** -/
theorem sum_update {t : Table R} {k : K} {f : R → R} {r : R} (g : R → M) (h : t.find k = some r)
    (hf : pk (f r) = pk r) : (t.update k f).sum g = t.sum g - g r + g (f r) := by
  obtain ⟨l₁, l₂, h1, h2⟩ := rows_update h hf
  simp only [sum, h1, h2, List.map_append, List.map_cons, List.sum_append, List.sum_cons]
  abel

end Sum

end Table

end GigMarketplace.Core
