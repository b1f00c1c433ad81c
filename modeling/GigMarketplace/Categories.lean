/-
The list of job categories: JobCategoryViewSet.list of `apps/jobs/views.py`, which caches it for an hour, and
JobCategoryAdmin of `apps/jobs/admin.py`, which drops the cached list with every edit.

The views are calls of `Core/CacheAside.lean`. Whether an edit can be seen before the list is dropped or only after it
depends on the admin's view: changing and deleting one category run in a transaction of the admin's, which commits when
the view has returned, the action that deletes a selection does not. Both are modelled (`Publish`). The database orders
by a collation, which is a parameter, as are the URLs of the icons.

Left out: the admin's form with its checks, and saving several rows of the admin's list at once.

Results:
- `category_list_within_hour`: every answer is the list as it was at some query, and if another call made that query,
  it cached the list less than an hour before the answer;
- `category_edit_missed_only_by_overlap`: an answer misses an edit that had ended before the request only if the request
  that cached the list overlaps the edit.
-/
import Mathlib.Data.String.Basic
import GigMarketplace.Accounts
import GigMarketplace.Core.CacheAside
import GigMarketplace.Core.Sorting

namespace GigMarketplace

open GigMarketplace.Core

/-! ## Rows -/

structure JobCategory where
  id : Pk
  name : String
  slug : String
  /-- the file's name; empty: none -/
  icon : String
  description : String
  isActive : Bool
  sortOrder : ℕ
deriving DecidableEq, Repr

instance : Keyed JobCategory Pk := ⟨JobCategory.id, fun c k => { c with id := k }, fun _ _ => rfl, fun _ => rfl⟩

@[simp] theorem pk_category (c : JobCategory) : pk c = c.id := rfl

/-- the tables that the list and its edits read -/
structure CategoryTables where
  categories : Table JobCategory
  /-- the column `category_id` of the jobs -/
  jobCategories : List Pk
deriving DecidableEq

structure CategoryEnv where
  /-- the collation's sort key -/
  collate : String → String
  /-- `icon.url` -/
  url : String → String

/-- what JobCategorySerializer makes of a row -/
structure CategoryData where
  id : Pk
  name : String
  slug : String
  icon : Option String
  description : String
deriving DecidableEq, Repr

def JobCategorySerializer.data (E : CategoryEnv) (c : JobCategory) : CategoryData :=
  ⟨c.id, c.name, c.slug, if c.icon = "" then none else some (E.url c.icon), c.description⟩

/-- the active ones, `ordering = ["sort_order", "name"]` -/
def JobCategoryViewSet.getQueryset (E : CategoryEnv) (t : CategoryTables) : List JobCategory :=
  sortOn JobCategory.sortOrder false
    (sortOn (fun c => E.collate c.name) false (t.categories.rows.filter fun c => c.isActive))

/-- the data that the query gives now -/
def activeCategories (E : CategoryEnv) (t : CategoryTables) : List CategoryData :=
  (JobCategoryViewSet.getQueryset E t).map (JobCategorySerializer.data E)

/-! ## Edits -/

/-- `obj.save()`: names and slugs are unique -/
def JobCategory.save (obj : JobCategory) (t : CategoryTables) : Except Exc CategoryTables :=
  if ∃ c ∈ t.categories.rows, c.id ≠ obj.id ∧ (c.name = obj.name ∨ c.slug = obj.slug) then .error .databaseError
  else if t.categories.find obj.id = none then .ok { t with categories := t.categories.insert obj }
  else .ok { t with categories := t.categories.update obj.id fun _ => obj }

/-- `queryset.delete()`; jobs protect their category -/
def JobCategory.deleteAll (ids : List Pk) (t : CategoryTables) : Except Exc CategoryTables :=
  if ∃ id ∈ ids, id ∈ t.jobCategories then .error .databaseError
  else .ok { t with categories := t.categories.delete fun c => c.id ∈ ids }

/-! ## Views -/

abbrev CategorySite := Cached CategoryTables (List CategoryData)

abbrev CategoryCall := Code CategorySite Exc (Option (List CategoryData))

/-- `timeout=3600` -/
def categoriesTimeout : ℕ := 3600

def JobCategoryViewSet.list (E : CategoryEnv) : CategoryCall := CacheAside.fetch (activeCategories E) categoriesTimeout

namespace JobCategoryAdmin

def saveModel (publish : Publish) (obj : JobCategory) : CategoryCall := CacheAside.edit publish obj.save

def deleteModel (publish : Publish) (obj : Pk) : CategoryCall := CacheAside.edit publish (JobCategory.deleteAll [obj])

def deleteQueryset (publish : Publish) (ids : List Pk) : CategoryCall :=
  CacheAside.edit publish (JobCategory.deleteAll ids)

end JobCategoryAdmin

inductive CategoryOp where
  /-- GET /jobs/categories/ -/
  | list
  | saveModel (publish : Publish) (obj : JobCategory)
  | deleteModel (publish : Publish) (obj : Pk)
  | deleteQueryset (publish : Publish) (ids : List Pk)
deriving DecidableEq

def CategoryOp.code (E : CategoryEnv) : CategoryOp → CategoryCall
  | .list => JobCategoryViewSet.list E
  | .saveModel publish obj => JobCategoryAdmin.saveModel publish obj
  | .deleteModel publish obj => JobCategoryAdmin.deleteModel publish obj
  | .deleteQueryset publish ids => JobCategoryAdmin.deleteQueryset publish ids

abbrev CategoryPool := Pool CategorySite Exc (Option (List CategoryData)) CategoryOp

abbrev CategoryEntry := Entry CategorySite Exc (Option (List CategoryData)) CategoryOp

abbrev CategoryEvent := PoolEvent CategoryOp (CacheNature CategoryTables)

/-- views in any interleaving; the clock moves, the cache may forget, other programs may change the tables -/
def categoryRun (E : CategoryEnv) (s : CategorySite) (evs : List CategoryEvent) : CategoryPool :=
  (Pool.init s).run (CategoryOp.code E) CacheNature.act evs

/-! ## The cache's law here -/

/-- each view as a call of the library -/
def CategoryOp.kind : CategoryOp → CacheOp CategoryTables Exc
  | .list => .fetch
  | .saveModel publish obj => .edit publish obj.save
  | .deleteModel publish obj => .edit publish (JobCategory.deleteAll [obj])
  | .deleteQueryset publish ids => .edit publish (JobCategory.deleteAll ids)

theorem categoryOp_code (E : CategoryEnv) :
    CategoryOp.code E = fun o => o.kind.code (activeCategories E) categoriesTimeout := by
  funext o
  cases o <;> rfl

@[simp] theorem categoryOp_fetch {o : CategoryOp} : o.kind = .fetch ↔ o = .list := by
  cases o <;> simp [CategoryOp.kind]

theorem category_law (E : CategoryEnv) {s : CategorySite} (hempty : s.slot = none) (evs : List CategoryEvent) :
    CacheLaw CategoryOp.kind (activeCategories E) categoriesTimeout (categoryRun E s evs).mem
      (categoryRun E s evs).trace := by
  unfold categoryRun
  rw [categoryOp_code]
  exact cache_law hempty evs

/-! ## Results -/

/-- GET /jobs/categories/ has answered `data` with the entry `e` -/
def ListAnswers (e : CategoryEntry) (data : List CategoryData) : Prop :=
  e.op = .list ∧ e.result = some (.ok (some data))

/-- an edit has returned with the entry `e` -/
def EditEnded (e : CategoryEntry) : Prop := e.op ≠ .list ∧ e.result = some (.ok none)

/-- **The list is cached for an hour.** Whatever the admin and other programs do and however the requests interleave,
every answer is the list of active categories as it was when some request queried it; if that was another request, it
cached the list less than 3600 seconds before the answer. How long a request takes from its query to the cache, or to
its own answer, is not bounded. -/
theorem category_list_within_hour (E : CategoryEnv) (s : CategorySite) (hempty : s.slot = none)
    (evs : List CategoryEvent) (e : CategoryEntry) (he : e ∈ (categoryRun E s evs).trace) (data : List CategoryData)
    (hanswer : ListAnswers e data) :
    ∃ q ∈ (categoryRun E s evs).trace, data = activeCategories E q.before.store ∧
      (q.begun = e.begun ∨ ∃ w ∈ (categoryRun E s evs).trace, w.op = .list ∧ w.begun = q.begun ∧ q.pos < w.pos ∧
        w.pos < e.pos ∧ e.before.clock < w.before.clock + 3600) := by
  have hkind : Answers CategoryOp.kind e data := ⟨categoryOp_fetch.2 hanswer.1, hanswer.2⟩
  obtain ⟨q, hsource⟩ := (category_law E hempty evs).answers e he data hkind
  cases hsource with
  | own hread hcall hbegun hvalue => exact ⟨q, hread, hvalue, Or.inl hcall⟩
  | cached w hfill hbefore hlive hkept =>
    refine ⟨q, hfill.read, hfill.value, Or.inr ⟨w, hfill.put, ?_, hfill.call, hfill.order, hbefore, hlive⟩⟩
    exact categoryOp_fetch.1 hfill.fetch

/-! ## One category -/

def demoCategoryEnv : CategoryEnv := ⟨id, fun name => "/media/" ++ name⟩

def demoCategory : JobCategory := ⟨1, "Cleaning", "cleaning", "", "", true, 0⟩

def demoCategories : CategorySite := ⟨⟨⟨[demoCategory], by decide⟩, []⟩, none, 0⟩

/-- The admin deactivates the category; a request comes between the drop and the commit, another one 3599 seconds
later. -/
def demoLateCommit : List CategoryEvent :=
  [.start 0 (.saveModel .onCommit { demoCategory with isActive := false }), .step 0, .start 1 .list, .step 1, .step 1,
    .step 0, .nature (.tick 3599), .start 2 .list]

/-- a request has queried the list when the admin deactivates the category, and caches it afterwards -/
def demoAtOnce : List CategoryEvent :=
  [.start 1 .list, .step 1, .start 0 (.saveModel .atOnce { demoCategory with isActive := false }), .step 0, .step 1,
    .nature (.tick 3599), .start 2 .list]

/-- the last entry of the first run -/
def demoStale : CategoryEntry :=
  (categoryRun demoCategoryEnv demoCategories demoLateCommit).trace.getLast (by decide +kernel)

theorem demoStale_mem : demoStale ∈ (categoryRun demoCategoryEnv demoCategories demoLateCommit).trace :=
  List.getLast_mem _

/-- the category is still shown -/
theorem demoStale_answers : ListAnswers demoStale [⟨1, "Cleaning", "cleaning", none, ""⟩] := ⟨rfl, rfl⟩

example : activeCategories demoCategoryEnv demoStale.before.store = [] := by decide +kernel

/-- so it is in the second run -/
example : (categoryRun demoCategoryEnv demoCategories demoAtOnce).trace.getLast?.bind Entry.result =
      some (.ok (some [⟨1, "Cleaning", "cleaning", none, ""⟩])) ∧
    activeCategories demoCategoryEnv (categoryRun demoCategoryEnv demoCategories demoAtOnce).mem.store = [] :=
  ⟨rfl, by decide +kernel⟩

theorem category_list_within_hour_demo :
    ∃ q ∈ (categoryRun demoCategoryEnv demoCategories demoLateCommit).trace,
      [⟨1, "Cleaning", "cleaning", none, ""⟩] = activeCategories demoCategoryEnv q.before.store ∧
        (q.begun = demoStale.begun ∨ ∃ w ∈ (categoryRun demoCategoryEnv demoCategories demoLateCommit).trace,
          w.op = .list ∧ w.begun = q.begun ∧ q.pos < w.pos ∧ w.pos < demoStale.pos ∧
            demoStale.before.clock < w.before.clock + 3600) :=
  category_list_within_hour demoCategoryEnv demoCategories rfl demoLateCommit demoStale demoStale_mem _
    demoStale_answers

/-- **Only an overlap hides an edit.** Every answer is the list of active categories at some query, and an edit that had
ended before the request began was seen by that query, unless the request that queried and cached the list overlaps the
edit: it queried before the edit's end and cached after its beginning. -/
theorem category_edit_missed_only_by_overlap (E : CategoryEnv) (s : CategorySite) (hempty : s.slot = none)
    (evs : List CategoryEvent) (e : CategoryEntry) (he : e ∈ (categoryRun E s evs).trace) (data : List CategoryData)
    (hanswer : ListAnswers e data) :
    ∃ q ∈ (categoryRun E s evs).trace, data = activeCategories E q.before.store ∧
      ∀ l ∈ (categoryRun E s evs).trace, EditEnded l → l.pos < e.begun → l.pos < q.pos ∨
        ∃ w ∈ (categoryRun E s evs).trace, w.op = .list ∧ w.begun = q.begun ∧ q.pos < w.pos ∧ q.pos ≤ l.pos ∧
          l.begun ≤ w.pos := by
  have hkind : Answers CategoryOp.kind e data := ⟨categoryOp_fetch.2 hanswer.1, hanswer.2⟩
  have hlaw := category_law E hempty evs
  obtain ⟨q, hsource⟩ := hlaw.answers e he data hkind
  have hread : q ∈ (categoryRun E s evs).trace ∧ data = activeCategories E q.before.store := by
    cases hsource with
    | own hread _ _ hvalue => exact ⟨hread, hvalue⟩
    | cached w hfill => exact ⟨hfill.read, hfill.value⟩
  refine ⟨q, hread.1, hread.2, fun l hl hedit hended => ?_⟩
  have hedited : Edited CategoryOp.kind l := ⟨fun h => hedit.1 (categoryOp_fetch.1 h), hedit.2⟩
  rcases missed_overlaps hlaw he hsource hl hedited hended with hseen | ⟨w, hfill, hquery, hbegun⟩
  · exact Or.inl hseen
  · exact Or.inr ⟨w, hfill.put, categoryOp_fetch.1 hfill.fetch, hfill.call, hfill.order, hquery, hbegun⟩

theorem category_edit_missed_only_by_overlap_demo :
    ∃ q ∈ (categoryRun demoCategoryEnv demoCategories demoLateCommit).trace,
      [⟨1, "Cleaning", "cleaning", none, ""⟩] = activeCategories demoCategoryEnv q.before.store ∧
        ∀ l ∈ (categoryRun demoCategoryEnv demoCategories demoLateCommit).trace, EditEnded l →
          l.pos < demoStale.begun → l.pos < q.pos ∨
            ∃ w ∈ (categoryRun demoCategoryEnv demoCategories demoLateCommit).trace, w.op = .list ∧
              w.begun = q.begun ∧ q.pos < w.pos ∧ q.pos ≤ l.pos ∧ l.begun ≤ w.pos :=
  category_edit_missed_only_by_overlap demoCategoryEnv demoCategories rfl demoLateCommit demoStale demoStale_mem _
    demoStale_answers

end GigMarketplace
