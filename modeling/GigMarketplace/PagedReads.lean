/-
StandardResultsPagination on rows that change under it.

Django's paginator counts the rows and then reads the page, in two queries, and cuts the page off at the count
(`Core/GrowingPages.lean`). Where nothing comes in between, that is the `paginate` of `Pagination.lean`.

Results:
- `run_paginateQueryset`: the two queries with nothing in between;
- `assures_paginateQueryset`: the page that a call returns, when others move the state along a preorder;
- `turns_of_calls`: the calls of a client that asks for page after page;
- `read_or_beyond`: where the rows only become more, such a client misses none but behind the last count;
- `read_or_overtaken`: where rows go, it misses one only when one in front of it goes between two pages.
-/
import GigMarketplace.Core.GrowingPages
import GigMarketplace.Core.Rely
import GigMarketplace.Pagination

namespace GigMarketplace

open GigMarketplace.Core StandardResultsPagination

variable {σ ε A O α κ : Type}

/-- page `number`, where `count` rows have been counted -/
def pageOf (size number count : ℕ) (rows : List α) : Page α where
  count := count
  totalPages := numPages size count
  currentPage := number
  next := if number < numPages size count then some (number + 1) else none
  previous := if 1 < number then some (number - 1) else none
  results := cutPage size (number - 1) count rows

/-- `paginate_queryset` and `get_paginated_response`: COUNT, the check of the number, and SELECT with LIMIT -/
def paginateQueryset (P : PageSettings) (q : PageQuery) (rows : σ → List α) (wrap : Exc → ε) : Code σ ε (Page α) := do
  let count ← Code.query fun s => .ok (rows s).length
  let size := getPageSize P q.pageSize
  Code.raiseIf (q.page < 1 ∨ numPages size count < q.page) (wrap (.notFound "Invalid page."))
  Code.query fun s => .ok (pageOf size q.page.toNat count (rows s))

section Alone

variable {P : PageSettings} {q : PageQuery} {rows : σ → List α} {wrap : Exc → ε}

/-- **Alone** it is `paginate`. -/
theorem run_paginateQueryset (s : σ) :
    (paginateQueryset P q rows wrap).run s = ((paginate P q (rows s)).mapError wrap, s) := by
  have hcount : (Code.query fun s => .ok (rows s).length : Code σ ε ℕ).run s = (.ok (rows s).length, s) :=
    Code.run_query _ s
  unfold paginateQueryset paginate
  rw [Code.run_bind_ok hcount]
  dsimp only
  by_cases hpage : q.page < 1 ∨ numPages (getPageSize P q.pageSize) (rows s).length < q.page
  · rw [Code.raiseIf_pos hpage, if_pos hpage]
    rfl
  · rw [Code.raiseIf_neg hpage, if_neg hpage]
    refine (Code.run_query _ s).trans ?_
    rw [pageOf, cutPage_length]
    rfl

theorem each_paginateQueryset {R : σ → σ → Prop} (hrefl : ∀ s, R s s) : (paginateQueryset P q rows wrap).Each R := by
  refine Code.each_bind (Code.each_query hrefl _) fun count => ?_
  exact Code.each_bind (Code.each_raiseIf _ _) fun _ => Code.each_query hrefl _

/-- what is returned: the count of one state, and the page of a later one -/
def Paged (P : PageSettings) (q : PageQuery) (rows : σ → List α) (R : σ → σ → Prop) (s₀ : σ) (page : Page α) (s : σ) :
    Prop :=
  ∃ s₁, R s₀ s₁ ∧ R s₁ s ∧ (1 ≤ q.page ∧ q.page ≤ numPages (getPageSize P q.pageSize) (rows s₁).length) ∧
    page = pageOf (getPageSize P q.pageSize) q.page.toNat (rows s₁).length (rows s)

/-- a page of a list that has been read before -/
theorem paged_of_paginate {S : σ → σ → Prop} {s₀ s : σ} {page : Page α} (hfirst : S s₀ s) (hlast : S s s)
    (h : (paginate P q (rows s)).mapError wrap = .ok page) : Paged P q rows S s₀ page s := by
  unfold paginate at h
  dsimp only at h
  by_cases hpage : q.page < 1 ∨ numPages (getPageSize P q.pageSize) (rows s).length < q.page
  · rw [if_pos hpage] at h
    cases h
  · rw [if_neg hpage] at h
    cases h
    rw [not_or, not_lt, not_lt] at hpage
    refine ⟨s, hfirst, hlast, hpage, ?_⟩
    rw [pageOf, cutPage_length]

theorem assures_paginateQueryset {J : σ → Prop} {R G S : σ → σ → Prop} (hrefl : ∀ s, G s s) {s₀ s : σ}
    (hfirst : ∀ s', R s s' → J s' → S s₀ s') (hS : ∀ s s', R s s' → J s' → S s s') :
    (paginateQueryset P q rows wrap).Assures J R G (Paged P q rows S s₀) s := by
  unfold paginateQueryset
  apply Code.assures_bind (P := fun count s₁ => S s₀ s₁ ∧ count = (rows s₁).length)
  · apply Code.assures_query hrefl
    intro s₁ count hR hJ hcount
    cases hcount
    exact ⟨hfirst s₁ hR hJ, rfl⟩
  · rintro count s₁ ⟨hstart, rfl⟩
    refine Code.assures_bind (P := fun _ s' => s' = s₁ ∧ ¬ (q.page < 1 ∨ _ < q.page))
      (Code.assures_raiseIf fun hpage => ⟨rfl, hpage⟩) ?_
    rintro - s' ⟨rfl, hpage⟩
    apply Code.assures_query hrefl
    intro s'' page hR hJ h
    cases h
    rw [not_or, not_lt, not_lt] at hpage
    exact ⟨s', hstart, hS s' s'' hR hJ, hpage, rfl⟩

end Alone

/-! ## Page after page -/

/-- The calls that answer the pages 1 to `last + 1`, each one begun after the answer before; the last page, and only it,
has no next one. -/
structure PageCalls (tr : List (Entry σ ε A O)) (ask : ℤ → O) (wrap : Page α → A) (last : ℕ)
    (entries : ℕ → Entry σ ε A O) (pages : ℕ → Page α) : Prop where
  mem : ∀ n ≤ last, entries n ∈ tr
  op : ∀ n ≤ last, (entries n).op = ask (n + 1)
  result : ∀ n ≤ last, (entries n).result = some (.ok (wrap (pages n)))
  following : ∀ n < last, (entries n).pos < (entries (n + 1)).begun
  next : ∀ n ≤ last, ((pages n).next = none ↔ n = last)

section Calls

variable {P : PageSettings} {pageSize : Option ℤ} {rows : σ → List α} {S : σ → σ → Prop} {key : α → κ} {s₀ final : σ}
  {tr : List (Entry σ ε A O)} {ask : ℤ → O} {wrap : Page α → A} {last : ℕ} {entries : ℕ → Entry σ ε A O}
  {pages : ℕ → Page α}

/-- **The client's turns**: what its calls have counted and shown. -/
theorem turns_of_calls (hcalls : PageCalls tr ask wrap last entries pages)
    (hreturned : ∀ e ∈ tr, ∀ n page, e.op = ask n → e.result = some (.ok (wrap page)) →
      Paged P ⟨n, pageSize⟩ rows S e.origin page e.after) :
    Turns (getPageSize P pageSize) last (fun n => (pages n).count) ∧
      (∀ n ≤ last, (pages n).results = cutPage (getPageSize P pageSize) n (pages n).count (rows (entries n).after)) ∧
      last * getPageSize P pageSize < max 1 (pages last).count ∧
      ∀ n ≤ last, ∃ s₁, S (entries n).origin s₁ ∧ S s₁ (entries n).after ∧ (pages n).count = (rows s₁).length := by
  have hpages : ∀ n ≤ last, ∃ s₁, S (entries n).origin s₁ ∧ S s₁ (entries n).after ∧
      n < numPages (getPageSize P pageSize) (rows s₁).length ∧
      pages n = pageOf (getPageSize P pageSize) (n + 1) (rows s₁).length (rows (entries n).after) := by
    intro n hn
    obtain ⟨s₁, horigin, hafter, ⟨-, hvalid⟩, hpage⟩ :=
      hreturned _ (hcalls.mem n hn) _ _ (hcalls.op n hn) (hcalls.result n hn)
    refine ⟨s₁, horigin, hafter, ?_, hpage⟩
    dsimp only at hvalid
    omega
  have hsize := getPageSize_pos P pageSize
  refine ⟨⟨?_, ?_⟩, ?_, ?_, ?_⟩
  · intro n hn
    obtain ⟨s₁, -, -, -, hpage⟩ := hpages n hn.le
    have hnext : (pages n).next ≠ none := fun h => absurd ((hcalls.next n hn.le).1 h) (Nat.ne_of_lt hn)
    rw [hpage] at hnext ⊢
    simp only [pageOf, ne_eq, ite_eq_right_iff, reduceCtorEq, imp_false, not_not] at hnext
    rw [lt_numPages_iff hsize, Nat.succ_mul] at hnext
    dsimp only [pageOf]
    omega
  · obtain ⟨s₁, -, -, -, hpage⟩ := hpages last (Nat.le_refl last)
    have hnext := (hcalls.next last (Nat.le_refl last)).2 rfl
    rw [hpage] at hnext ⊢
    simp only [pageOf, ite_eq_right_iff, reduceCtorEq, imp_false] at hnext
    rw [lt_numPages_iff hsize, Nat.succ_mul] at hnext
    dsimp only [pageOf]
    omega
  · intro n hn
    obtain ⟨s₁, -, -, -, hpage⟩ := hpages n hn
    rw [hpage]
    rfl
  · obtain ⟨s₁, -, -, hvalid, hpage⟩ := hpages last (Nat.le_refl last)
    rw [lt_numPages_iff hsize] at hvalid
    rw [hpage]
    exact hvalid
  · intro n hn
    obtain ⟨s₁, horigin, hafter, -, hpage⟩ := hpages n hn
    refine ⟨s₁, horigin, hafter, ?_⟩
    rw [hpage]
    rfl

/-- the client's visit, where the rows become more -/
theorem visit_of_calls (hcalls : PageCalls tr ask wrap last entries pages)
    (hreturned : ∀ e ∈ tr, ∀ n page, e.op = ask n → e.result = some (.ok (wrap page)) →
      Paged P ⟨n, pageSize⟩ rows S e.origin page e.after)
    (hordered : OrderedTrace S s₀ final tr)
    (htrans : ∀ s₁ s₂ s₃, S s₁ s₂ → S s₂ s₃ → S s₁ s₃)
    (hgrows : ∀ s s', S s s' → S s' final → ((rows s).map key).Sublist ((rows s').map key)) :
    Visit (getPageSize P pageSize) last (fun n => (pages n).count) (fun n => (rows (entries n).after).map key) ∧
      ((rows (entries 0).origin).map key).Sublist ((rows (entries 0).after).map key) := by
  obtain ⟨hturns, -, -, hcounted⟩ := turns_of_calls hcalls hreturned
  have hnow : ∀ n ≤ last, S (entries n).after final := fun n hn => hordered.now _ (hcalls.mem n hn)
  refine ⟨⟨hturns, ?_, ?_⟩, ?_⟩
  · intro n hn
    obtain ⟨s₁, horigin, hafter, -⟩ := hcounted (n + 1) (by omega)
    have hbegan := hordered.began _ (hcalls.mem n hn.le) _ (hcalls.mem (n + 1) (by omega)) (hcalls.following n hn)
    exact hgrows _ _ (htrans _ _ _ hbegan (htrans _ _ _ horigin hafter)) (hnow (n + 1) (by omega))
  · intro n hn
    obtain ⟨s₁, -, hafter, hcount⟩ := hcounted n hn
    have hlength := (hgrows s₁ _ hafter (hnow n hn)).length_le
    rw [List.length_map, List.length_map] at hlength
    rw [hcount, List.length_map]
    exact hlength
  · obtain ⟨s₁, horigin, hafter, -⟩ := hcounted 0 (Nat.zero_le last)
    exact hgrows _ _ (htrans _ _ _ horigin hafter) (hnow 0 (Nat.zero_le last))

/-- **Nothing is missed but behind the last count**, and as many rows are shown as it says. -/
theorem read_or_beyond (hcalls : PageCalls tr ask wrap last entries pages)
    (hreturned : ∀ e ∈ tr, ∀ n page, e.op = ask n → e.result = some (.ok (wrap page)) →
      Paged P ⟨n, pageSize⟩ rows S e.origin page e.after)
    (hordered : OrderedTrace S s₀ final tr)
    (htrans : ∀ s₁ s₂ s₃, S s₁ s₂ → S s₂ s₃ → S s₁ s₃)
    (hgrows : ∀ s s', S s s' → S s' final → ((rows s).map key).Sublist ((rows s').map key)) :
    (∀ k ∈ (rows (entries 0).origin).map key, (∃ n ≤ last, k ∈ (pages n).results.map key) ∨
      k ∈ ((rows (entries last).after).map key).drop (pages last).count) ∧
      ((List.range (last + 1)).flatMap fun n => (pages n).results).length = (pages last).count := by
  obtain ⟨hvisit, hstart⟩ := visit_of_calls hcalls hreturned hordered htrans hgrows
  obtain ⟨-, hshows, hvalid, -⟩ := turns_of_calls hcalls hreturned
  have hresults : ∀ n ≤ last, (pages n).results.map key =
      cutPage (getPageSize P pageSize) n (pages n).count ((rows (entries n).after).map key) := by
    intro n hn
    rw [hshows n hn, map_cutPage]
  constructor
  · intro k hk
    rcases shown_or_beyond hvisit hvalid (hstart.subset hk) with ⟨n, hn, hshown⟩ | hbeyond
    · left
      refine ⟨n, hn, ?_⟩
      rw [hresults n hn]
      exact hshown
    · exact Or.inr hbeyond
  · have hshown := length_shown hvisit hvalid
    have hflat : ((List.range (last + 1)).flatMap fun n => (pages n).results).map key =
        (List.range (last + 1)).flatMap fun n => cutPage (getPageSize P pageSize) n (pages n).count
          ((rows (entries n).after).map key) := by
      rw [List.map_flatMap]
      exact List.flatMap_congr fun n hn => hresults n (Nat.lt_succ_iff.1 (List.mem_range.1 hn))
    rw [← List.length_map key, hflat]
    exact hshown

/-- **Missed only where something goes.** Rows that are sorted by a key without ties: one that each page finds is shown,
or stands beyond the last count, or one in front of it has gone between two pages. -/
theorem read_or_overtaken {κ : Type} [LinearOrder κ] {key : α → κ} {reverse : Bool} {a : α}
    (hcalls : PageCalls tr ask wrap last entries pages)
    (hreturned : ∀ e ∈ tr, ∀ n page, e.op = ask n → e.result = some (.ok (wrap page)) →
      Paged P ⟨n, pageSize⟩ rows S e.origin page e.after)
    (hsorted : ∀ s, (rows s).Pairwise (Ordered key reverse))
    (hties : ∀ n ≤ last, ((rows (entries n).after).map key).Nodup) (ha : ∀ n ≤ last, a ∈ rows (entries n).after) :
    (∃ n ≤ last, a ∈ (pages n).results) ∨ a ∈ (rows (entries last).after).drop (pages last).count ∨
      ∃ n < last, ∃ b, [b, a].Sublist (rows (entries n).after) ∧ b ∉ rows (entries (n + 1)).after := by
  obtain ⟨hturns, hshows, -, -⟩ := turns_of_calls hcalls hreturned
  have hplaces : ∀ n, ∃ i : ℕ, n ≤ last → (rows (entries n).after)[i]? = some a := by
    intro n
    rcases Nat.lt_or_ge last n with hn | hn
    · exact ⟨0, fun h => absurd h (not_le.2 hn)⟩
    · obtain ⟨i, hi⟩ := List.mem_iff_getElem?.1 (ha n hn)
      exact ⟨i, fun _ => hi⟩
  choose p hp using hplaces
  by_cases hmono : ∀ n < last, p n ≤ p (n + 1)
  · rcases shown_or_overtaken hturns hp hmono with ⟨n, hn, hshown⟩ | hbeyond
    · left
      refine ⟨n, hn, ?_⟩
      rw [hshows n hn]
      exact hshown
    · exact Or.inr (Or.inl hbeyond)
  · right; right
    push Not at hmono
    obtain ⟨n, hn, hless⟩ := hmono
    by_contra hstay
    refine absurd (position_le (hsorted _) (hsorted _) (hties n hn.le) (hties (n + 1) hn) (hp n hn.le) (hp (n + 1) hn)
      ?_) (not_le.2 hless)
    intro b hb
    by_contra hgone
    exact hstay ⟨n, hn, b, sublist_of_before (hp n hn.le) hb, hgone⟩

end Calls

end GigMarketplace
