/-
A value that is computed from a store and kept in a cache, with an expiry, by the calls that ask for it.

`fetch` asks the cache, and on a miss reads the store and fills the cache, each in a statement of its own. `edit`
changes the store and drops the cached value; the change is published at once, before the drop, or when the transaction
around both commits, after it. Calls interleave (`Core/Threads.lean`), the clock moves, the cache may forget the value,
and the store may change behind the cache's back.

Results:
- `cacheLaw_step`: what one statement does, by the stage its call is at;
- `cache_law`: what is cached was read from the store by a fetch, which put it there, and nobody has dropped it since;
  and every answer was read by its own call, or by one that put it into the cache less than the timeout before;
- `missed_overlaps`: an answer that misses an edit which had ended before the call began was put into the cache by a
  call that overlaps the edit.
-/
import GigMarketplace.Core.Threads

namespace GigMarketplace.Core

/-! ## State and statements -/

structure Cached (δ V : Type) where
  store : δ
  /-- the cached value and when it expires -/
  slot : Option (V × ℕ)
  clock : ℕ
deriving DecidableEq

/-- what the cache answers -/
def Cached.live {δ V : Type} (s : Cached δ V) : Option V :=
  match s.slot with
  | some (v, expiry) => if s.clock < expiry then some v else none
  | none => none

inductive CacheNature (δ : Type) where
  | tick (d : ℕ)
  | forget
  /-- someone else changes the store -/
  | outside (f : δ → δ)

def CacheNature.act {δ V : Type} : CacheNature δ → Cached δ V → Cached δ V
  | .tick d, s => { s with clock := s.clock + d }
  | .forget, s => { s with slot := none }
  | .outside f, s => { s with store := f s.store }

/-- when an edit can be seen -/
inductive Publish where
  | atOnce
  | onCommit
deriving DecidableEq, Repr

inductive CacheOp (δ ε : Type) where
  | fetch
  | edit (publish : Publish) (f : δ → Except ε δ)

namespace CacheAside

variable {δ V ε : Type}

def lookup : Code (Cached δ V) ε (Option V) := .query fun s => .ok s.live

def read (view : δ → V) : Code (Cached δ V) ε V := .query fun s => .ok (view s.store)

def put (ttl : ℕ) (v : V) : Code (Cached δ V) ε Unit :=
  .act fun s => .ok ((), { s with slot := some (v, s.clock + ttl) })

def drop : Code (Cached δ V) ε Unit := .act fun s => .ok ((), { s with slot := none })

def write (f : δ → Except ε δ) : Code (Cached δ V) ε Unit :=
  .act fun s => (f s.store).map fun store => ((), { s with store })

/-- a write that nobody else sees yet; it raises where the write would -/
def attempt (f : δ → Except ε δ) : Code (Cached δ V) ε Unit := .query fun s => (f s.store).map fun _ => ()

def fetch (view : δ → V) (ttl : ℕ) : Code (Cached δ V) ε (Option V) := do
  let data ← lookup
  match data with
  | some v => return some v
  | none => do
    let v ← read view
    put ttl v
    return some v

def edit (publish : Publish) (f : δ → Except ε δ) : Code (Cached δ V) ε (Option V) :=
  match publish with
  | .atOnce => do
    write f
    drop
    return none
  | .onCommit => do
    attempt f
    drop
    write f
    return none

end CacheAside

def CacheOp.code {δ V ε : Type} (view : δ → V) (ttl : ℕ) : CacheOp δ ε → Code (Cached δ V) ε (Option V)
  | .fetch => CacheAside.fetch view ttl
  | .edit publish f => CacheAside.edit publish f

/-! ## What a trace shows -/

section Trace

variable {δ V ε O : Type}

abbrev CacheEntry (δ V ε O : Type) := Entry (Cached δ V) ε (Option V) O

variable (kind : O → CacheOp δ ε) (view : δ → V) (ttl : ℕ)

/-- the entry with which a fetch answers `v` -/
def Answers (e : CacheEntry δ V ε O) (v : V) : Prop := kind e.op = .fetch ∧ e.result = some (.ok (some v))

/-- the entry with which an edit returns -/
def Edited (e : CacheEntry δ V ε O) : Prop := kind e.op ≠ .fetch ∧ e.result = some (.ok none)

/-- a fetch has read `v` at `q` and put it into the cache at `w` -/
structure Filled (tr : List (CacheEntry δ V ε O)) (q w : CacheEntry δ V ε O) (v : V) : Prop where
  read : q ∈ tr
  put : w ∈ tr
  order : q.pos < w.pos
  call : w.begun = q.begun
  fetch : kind w.op = .fetch
  value : v = view q.before.store
  slot : w.after.slot = some (v, w.before.clock + ttl)

/-- from the entry `w` up to the position `n` the cache keeps what `w` has left in it -/
def KeptSince (tr : List (CacheEntry δ V ε O)) (w : CacheEntry δ V ε O) (n : ℕ) : Prop :=
  ∀ d ∈ tr, w.pos < d.pos → d.pos < n → d.after.slot = w.after.slot

/-- where the answer `v` with the entry `e` comes from, and the entry that read it -/
inductive Source (tr : List (CacheEntry δ V ε O)) (e : CacheEntry δ V ε O) (v : V) (q : CacheEntry δ V ε O) : Prop where
  | own (hread : q ∈ tr) (hcall : q.begun = e.begun) (hbegun : q.begun ≤ q.pos) (hvalue : v = view q.before.store)
  | cached (w : CacheEntry δ V ε O) (hfill : Filled kind view ttl tr q w v) (hbefore : w.pos < e.pos)
      (hlive : e.before.clock < w.before.clock + ttl) (hkept : KeptSince tr w e.pos)

/-- the edit that began at `begun` has dropped the cached value, at most at the position `n` -/
def Dropped (tr : List (CacheEntry δ V ε O)) (begun n : ℕ) : Prop :=
  ∃ d ∈ tr, d.begun = begun ∧ begun ≤ d.pos ∧ d.pos ≤ n ∧ d.after.slot = none

variable {kind view ttl} {tr : List (CacheEntry δ V ε O)} {e q w : CacheEntry δ V ε O} {v : V} {n : ℕ}

theorem Filled.mono (h : Filled kind view ttl tr q w v) (e : CacheEntry δ V ε O) :
    Filled kind view ttl (tr ++ [e]) q w v :=
  { h with read := List.mem_append_left _ h.read, put := List.mem_append_left _ h.put }

/-- a later entry does not matter -/
theorem KeptSince.mono (h : KeptSince tr w n) (he : n ≤ e.pos) : KeptSince (tr ++ [e]) w n := by
  intro d hd hlt hn
  rcases List.mem_append.1 hd with hd | hd
  · exact h d hd hlt hn
  · cases List.mem_singleton.1 hd
    exact absurd hn (Nat.not_lt.2 he)

/-- an entry that leaves what `w` has put there -/
theorem KeptSince.snoc (h : KeptSince tr w n) (hall : ∀ d ∈ tr, d.pos < n) (hslot : e.after.slot = w.after.slot)
    (m : ℕ) : KeptSince (tr ++ [e]) w m := by
  intro d hd hlt _
  rcases List.mem_append.1 hd with hd | hd
  · exact h d hd hlt (hall d hd)
  · cases List.mem_singleton.1 hd
    exact hslot

theorem Source.mono (h : Source kind view ttl tr q v w) (hlater : q.pos ≤ e.pos) :
    Source kind view ttl (tr ++ [e]) q v w := by
  cases h with
  | own hread hcall hbegun hvalue => exact .own (List.mem_append_left _ hread) hcall hbegun hvalue
  | cached w' hfill hbefore hlive hkept => exact .cached w' (hfill.mono e) hbefore hlive (hkept.mono hlater)

theorem Dropped.mono {begun n' : ℕ} (h : Dropped tr begun n) (hn : n ≤ n') (e : CacheEntry δ V ε O) :
    Dropped (tr ++ [e]) begun n' := by
  obtain ⟨d, hd, hcall, hbegun, hpos, hslot⟩ := h
  exact ⟨d, List.mem_append_left _ hd, hcall, hbegun, Nat.le_trans hpos hn, hslot⟩

end Trace

/-! ## The law -/

section Law

variable {δ V ε O : Type} (kind : O → CacheOp δ ε) (view : δ → V) (ttl : ℕ)

structure CacheLaw (s : Cached δ V) (tr : List (CacheEntry δ V ε O)) : Prop where
  placed : ∀ e ∈ tr, e.begun ≤ e.pos ∧ e.pos < tr.length
  slot : ∀ v expiry, s.slot = some (v, expiry) → ∃ q w, Filled kind view ttl tr q w v ∧
    expiry = w.before.clock + ttl ∧ KeptSince tr w tr.length
  answers : ∀ e ∈ tr, ∀ v, Answers kind e v → ∃ q, Source kind view ttl tr e v q
  edits : ∀ e ∈ tr, Edited kind e → Dropped tr e.begun e.pos

open CacheAside in
/-- where a call that began at `begun` is -/
inductive CacheStage (tr : List (CacheEntry δ V ε O)) (begun : ℕ) :
    CacheOp δ ε → Code (Cached δ V) ε (Option V) → Prop where
  | missed : CacheStage tr begun .fetch (do let v ← read view; put ttl v; return some v)
  | read (v : V) (q : CacheEntry δ V ε O) (hread : q ∈ tr) (hcall : q.begun = begun) (hbegun : begun ≤ q.pos)
      (hvalue : v = view q.before.store) : CacheStage tr begun .fetch (do put ttl v; return some v)
  | written (f : δ → Except ε δ) : CacheStage tr begun (.edit .atOnce f) (do drop; return none)
  | attempted (f : δ → Except ε δ) : CacheStage tr begun (.edit .onCommit f) (do drop; write f; return none)
  | dropped (f : δ → Except ε δ) (hdrop : Dropped tr begun tr.length) :
      CacheStage tr begun (.edit .onCommit f) (do write f; return none)

/-- a running call -/
def CacheCall (_ : Cached δ V) (tr : List (CacheEntry δ V ε O)) (r : Running (Cached δ V) ε (Option V) O) : Prop :=
  r.begun < tr.length ∧ CacheStage view ttl tr r.begun (kind r.op) r.rest

/-- what the next statement of a call does, and what is left of the call then -/
inductive CacheStep (tr : List (CacheEntry δ V ε O)) (begun : ℕ) (s : Cached δ V) :
    CacheOp δ ε → Cached δ V → Code (Cached δ V) ε (Option V) → Prop where
  | hit (v : V) (hlive : s.live = some v) : CacheStep tr begun s .fetch s (.ret (some v))
  | goes (op : CacheOp δ ε) (s' : Cached δ V) (rest : Code (Cached δ V) ε (Option V)) (hslot : s'.slot = s.slot)
      (hrest : ∀ e : CacheEntry δ V ε O, e.begun = begun → begun ≤ e.pos → e.before = s →
        CacheStage view ttl (tr ++ [e]) begun op rest) : CacheStep tr begun s op s' rest
  | puts (v : V) (q : CacheEntry δ V ε O) (hread : q ∈ tr) (hcall : q.begun = begun) (hbegun : begun ≤ q.pos)
      (hvalue : v = view q.before.store) :
      CacheStep tr begun s .fetch { s with slot := some (v, s.clock + ttl) } (.ret (some v))
  | drops (op : CacheOp δ ε) (rest : Code (Cached δ V) ε (Option V)) (hop : op ≠ .fetch)
      (hrest : rest.result = none → ∀ e : CacheEntry δ V ε O, e.begun = begun → begun ≤ e.pos →
        e.pos ≤ tr.length → e.after.slot = none → CacheStage view ttl (tr ++ [e]) begun op rest) :
      CacheStep tr begun s op { s with slot := none } rest
  | commits (op : CacheOp δ ε) (s' : Cached δ V) (hop : op ≠ .fetch) (hslot : s'.slot = s.slot)
      (hdrop : Dropped tr begun tr.length) : CacheStep tr begun s op s' (.ret none)
  | raises (op : CacheOp δ ε) (e : ε) : CacheStep tr begun s op s (.raise e)

end Law

section Steps

variable {δ V ε O : Type} {view : δ → V} {ttl begun : ℕ} {s : Cached δ V} {tr : List (CacheEntry δ V ε O)}
  {f : Cached δ V → Cached δ V} {next : Cached δ V → Code (Cached δ V) ε (Option V)} {op : CacheOp δ ε}
  {c : Code (Cached δ V) ε (Option V)}

/-- a write leaves what is cached -/
theorem slot_write {g : δ → Except ε δ} {x : Unit × Cached δ V}
    (h : ((g s.store).map fun store => ((), { s with store })) = .ok x) : x.2.slot = s.slot := by
  cases hg : g s.store with
  | error e =>
    rw [hg] at h
    cases h
  | ok store =>
    rw [hg] at h
    cases h
    rfl

/-- the first statement of a call -/
theorem cacheStep_start (h : op.code view ttl = .stmt f next) : CacheStep view ttl tr begun s op (f s) (next s) := by
  cases op with
  | fetch =>
    obtain ⟨hf, ⟨e, he, -⟩ | ⟨data, hdata, hnext⟩⟩ := Code.query_bind_cases h s
    · cases he
    · cases hdata
      rw [hf, hnext]
      cases hlive : s.live with
      | some v => exact .hit v hlive
      | none => exact .goes .fetch s _ rfl fun _ _ _ _ => .missed
  | edit publish g =>
    cases publish with
    | atOnce =>
      obtain ⟨e, -, hf, hnext⟩ | ⟨x, hx, hf, hnext⟩ := Code.act_bind_cases h s
      · rw [hf, hnext]
        exact .raises _ e
      · rw [hf, hnext]
        exact .goes _ _ _ (slot_write hx) fun _ _ _ _ => .written g
    | onCommit =>
      obtain ⟨hf, ⟨e, -, hnext⟩ | ⟨_, -, hnext⟩⟩ := Code.query_bind_cases h s
      · rw [hf, hnext]
        exact .raises _ e
      · rw [hf, hnext]
        exact .goes _ _ _ rfl fun _ _ _ _ => .attempted g

/-- a later one -/
theorem cacheStep_later (hlater : CacheStage view ttl tr begun op c) (h : c = .stmt f next) :
    CacheStep view ttl tr begun s op (f s) (next s) := by
  cases hlater with
  | missed =>
    injection h with hf hnext
    subst hf hnext
    refine .goes _ _ _ rfl fun e hcall hbegun hbefore => .read (view s.store) e ?_ hcall hbegun ?_
    · exact List.mem_append_right _ (List.mem_singleton_self _)
    · rw [hbefore]
  | read v q hread hcall hbegun hvalue =>
    injection h with hf hnext
    subst hf hnext
    exact .puts v q hread hcall hbegun hvalue
  | written g =>
    injection h with hf hnext
    subst hf hnext
    exact .drops _ _ (fun h => by cases h) fun h => by cases h
  | attempted g =>
    injection h with hf hnext
    subst hf hnext
    refine .drops _ _ (fun h => by cases h) fun _ e hcall hbegun hpos hslot =>
      .dropped g ⟨e, ?_, hcall, hbegun, ?_, hslot⟩
    · exact List.mem_append_right _ (List.mem_singleton_self _)
    · rw [List.length_append]
      exact Nat.le_trans hpos (Nat.le_add_right _ _)
  | dropped g hdrop =>
    obtain ⟨e, -, hf, hnext⟩ | ⟨x, hx, hf, hnext⟩ := Code.act_bind_cases h s
    · rw [hf, hnext]
      exact .raises _ e
    · rw [hf, hnext]
      exact .commits _ _ (fun h => by cases h) (slot_write hx) hdrop

end Steps

/-! ## Every statement -/

section Rule

variable {δ V ε O : Type} {kind : O → CacheOp δ ε} {view : δ → V} {ttl : ℕ} {s s' : Cached δ V}
  {tr : List (CacheEntry δ V ε O)} {e : CacheEntry δ V ε O} {r : Running (Cached δ V) ε (Option V) O}

theorem CacheStage.mono {begun : ℕ} {op : CacheOp δ ε} {c : Code (Cached δ V) ε (Option V)}
    (h : CacheStage view ttl tr begun op c) (e : CacheEntry δ V ε O) :
    CacheStage view ttl (tr ++ [e]) begun op c := by
  cases h with
  | missed => exact .missed
  | read v q hread hcall hbegun hvalue => exact .read v q (List.mem_append_left _ hread) hcall hbegun hvalue
  | written f => exact .written f
  | attempted f => exact .attempted f
  | dropped f hdrop =>
    refine .dropped f (hdrop.mono ?_ e)
    rw [List.length_append]
    exact Nat.le_add_right _ _

/-- one more entry: what is cached after it was cached before, or the entry has put it there -/
theorem CacheLaw.snoc (h : CacheLaw kind view ttl s tr) (hpos : e.pos = tr.length) (hbegun : e.begun ≤ tr.length)
    (hslot : ∀ v expiry, s'.slot = some (v, expiry) →
      (s.slot = some (v, expiry) ∧ e.after.slot = some (v, expiry)) ∨
        ∃ q, Filled kind view ttl (tr ++ [e]) q e v ∧ expiry = e.before.clock + ttl)
    (hanswer : ∀ v, Answers kind e v → ∃ q, Source kind view ttl (tr ++ [e]) e v q)
    (hedit : Edited kind e → Dropped (tr ++ [e]) e.begun e.pos) : CacheLaw kind view ttl s' (tr ++ [e]) := by
  refine ⟨?_, ?_, ?_, ?_⟩
  · rw [List.forall_mem_append, List.forall_mem_singleton, List.length_append, List.length_singleton]
    refine ⟨fun d hd => ?_, by omega⟩
    obtain ⟨h1, h2⟩ := h.placed d hd
    exact ⟨h1, by omega⟩
  · intro v expiry hs
    rcases hslot v expiry hs with ⟨hold, hafter⟩ | ⟨q, hfill, hexpiry⟩
    · obtain ⟨q, w, hfill, hexpiry, hkept⟩ := h.slot v expiry hold
      refine ⟨q, w, hfill.mono e, hexpiry, hkept.snoc (fun d hd => (h.placed d hd).2) ?_ _⟩
      rw [hafter, hfill.slot, hexpiry]
    · refine ⟨q, e, hfill, hexpiry, fun d hd hlt _ => ?_⟩
      rcases List.mem_append.1 hd with hd | hd
      · have := (h.placed d hd).2
        omega
      · cases List.mem_singleton.1 hd
        omega
  · rw [List.forall_mem_append, List.forall_mem_singleton]
    refine ⟨fun d hd v hv => ?_, hanswer⟩
    obtain ⟨q, hq⟩ := h.answers d hd v hv
    have := (h.placed d hd).2
    exact ⟨q, hq.mono (by omega)⟩
  · rw [List.forall_mem_append, List.forall_mem_singleton]
    exact ⟨fun d hd hd' => (h.edits d hd hd').mono (Nat.le_refl _) e, hedit⟩

/-- the cache is as before, or empty -/
theorem slot_kept (hafter : e.after = s') (hkeep : s'.slot = s.slot ∨ s'.slot = none) (v : V) (expiry : ℕ)
    (h : s'.slot = some (v, expiry)) : (s.slot = some (v, expiry) ∧ e.after.slot = some (v, expiry)) ∨
      ∃ q, Filled kind view ttl (tr ++ [e]) q e v ∧ expiry = e.before.clock + ttl := by
  rcases hkeep with hsame | hnone
  · rw [hafter]
    exact Or.inl ⟨hsame.symm.trans h, h⟩
  · rw [hnone] at h
    cases h

/-- **One statement** keeps the law, and its call goes on to the next stage. -/
theorem cacheLaw_step {rest : Code (Cached δ V) ε (Option V)} (h : CacheLaw kind view ttl s tr)
    (hpos : e.pos = tr.length) (hbegun : e.begun ≤ tr.length) (hbefore : e.before = s) (hafter : e.after = s')
    (hresult : e.result = rest.result) (hstep : CacheStep view ttl tr e.begun s (kind e.op) s' rest) :
    CacheLaw kind view ttl s' (tr ++ [e]) ∧
      (rest.result = none → CacheStage view ttl (tr ++ [e]) e.begun (kind e.op) rest) := by
  have hmem : e ∈ tr ++ [e] := List.mem_append_right _ (List.mem_singleton_self _)
  have hbegun' : e.begun ≤ e.pos := by omega
  generalize hop : kind e.op = op at hstep
  cases hstep with
  | hit v hlive =>
    refine ⟨h.snoc hpos hbegun (slot_kept hafter (Or.inl rfl)) ?_ ?_, fun hnone => by cases hnone⟩
    · rintro v' ⟨-, hres⟩
      rw [hresult] at hres
      cases hres
      -- it was live, so it was there
      obtain ⟨expiry, hslot, hlt⟩ : ∃ expiry, s.slot = some (v, expiry) ∧ s.clock < expiry := by
        unfold Cached.live at hlive
        rcases hs : s.slot with _ | ⟨v', expiry⟩
        · simp [hs] at hlive
        · simp only [hs, Option.ite_none_right_eq_some, Option.some.injEq] at hlive
          obtain ⟨hlt, rfl⟩ := hlive
          exact ⟨expiry, rfl, hlt⟩
      obtain ⟨q, w, hfill, hexpiry, hkept⟩ := h.slot v expiry hslot
      have hw := (h.placed w hfill.put).2
      refine ⟨q, .cached w (hfill.mono e) (by omega) ?_ ?_⟩
      · rw [hbefore, ← hexpiry]
        exact hlt
      · rw [hpos]
        exact hkept.mono (by omega)
    · rintro ⟨hno, -⟩
      exact absurd hop hno
  | goes _ _ _ hslot hrest =>
    have hstage := hrest e rfl hbegun' hbefore
    have hrunning : rest.result = none := by
      cases hstage <;> rfl
    refine ⟨h.snoc hpos hbegun (slot_kept hafter (Or.inl hslot)) ?_ ?_, fun _ => hstage⟩
    · rintro v ⟨-, hres⟩
      rw [hresult, hrunning] at hres
      cases hres
    · rintro ⟨-, hres⟩
      rw [hresult, hrunning] at hres
      cases hres
  | puts v q hread hcall hle hvalue =>
    have hq : q.pos < e.pos := by
      have := (h.placed q hread).2
      omega
    refine ⟨h.snoc hpos hbegun ?_ ?_ ?_, fun hnone => by cases hnone⟩
    · intro v' expiry hslot
      cases hslot
      right
      refine ⟨q, ⟨List.mem_append_left _ hread, hmem, hq, hcall.symm, hop, hvalue, ?_⟩, ?_⟩
      · rw [hafter, hbefore]
      · rw [hbefore]
    · rintro v' ⟨-, hres⟩
      rw [hresult] at hres
      cases hres
      refine ⟨q, .own (List.mem_append_left _ hread) hcall ?_ hvalue⟩
      rw [hcall]
      exact hle
    · rintro ⟨hno, -⟩
      exact absurd hop hno
  | drops _ _ hno hrest =>
    have hgone : e.after.slot = none := by
      rw [hafter]
    refine ⟨h.snoc hpos hbegun (slot_kept hafter (Or.inr rfl)) ?_ ?_,
      fun hnone => hrest hnone e rfl hbegun' (by omega) hgone⟩
    · rintro v ⟨hfetch, -⟩
      exact absurd (hop.symm.trans hfetch) hno
    · rintro -
      exact ⟨e, hmem, rfl, hbegun', Nat.le_refl _, hgone⟩
  | commits _ _ hno hslot hdrop =>
    refine ⟨h.snoc hpos hbegun (slot_kept hafter (Or.inl hslot)) ?_ ?_, fun hnone => by cases hnone⟩
    · rintro v ⟨hfetch, -⟩
      exact absurd (hop.symm.trans hfetch) hno
    · rintro -
      exact hdrop.mono (by omega) e
  | raises _ x =>
    refine ⟨h.snoc hpos hbegun (slot_kept hafter (Or.inl rfl)) ?_ ?_, fun hnone => by cases hnone⟩
    · rintro v ⟨-, hres⟩
      rw [hresult] at hres
      cases hres
    · rintro ⟨-, hres⟩
      rw [hresult] at hres
      cases hres

theorem cache_rule : PoolRule (fun o => (kind o).code view ttl) CacheNature.act (fun _ => True)
    (CacheLaw kind view ttl) (CacheCall kind view ttl) where
  own s tr c r f next h hr hrest := by
    have hstep : r.begun ≤ tr.length ∧ CacheStep view ttl tr r.begun s (kind r.op) (f s) (next s) := by
      rcases hr with ⟨o, -, rfl⟩ | ⟨hlt, hstage⟩
      · exact ⟨Nat.le_refl _, cacheStep_start hrest⟩
      · exact ⟨Nat.le_of_lt hlt, cacheStep_later hstage hrest⟩
    obtain ⟨hlaw, hgoes⟩ := cacheLaw_step (e := r.entry c tr.length s f (next s)) h rfl hstep.1 rfl rfl rfl hstep.2
    refine ⟨hlaw, fun hnone => ⟨?_, hgoes hnone⟩⟩
    rw [List.length_append, List.length_singleton]
    exact Nat.lt_succ_of_le hstep.1
  others s tr c r f next r' h hr hrest hr' := by
    refine ⟨?_, hr'.2.mono _⟩
    rw [List.length_append]
    exact Nat.lt_add_right _ hr'.1
  natural s tr n h := by
    refine ⟨⟨h.placed, ?_, h.answers, h.edits⟩, fun r hr => hr⟩
    cases n with
    | tick d => exact h.slot
    | outside f => exact h.slot
    | forget =>
      intro v expiry hslot
      cases hslot

end Rule

/-! ## Every run -/

section Run

variable {δ V ε O : Type} {kind : O → CacheOp δ ε} {view : δ → V} {ttl : ℕ} {s : Cached δ V}

/-- **The cache's law**, from an empty cache. -/
theorem cache_law (hempty : s.slot = none) (evs : List (PoolEvent O (CacheNature δ))) :
    CacheLaw kind view ttl ((Pool.init s).run (fun o => (kind o).code view ttl) CacheNature.act evs).mem
      ((Pool.init s).run (fun o => (kind o).code view ttl) CacheNature.act evs).trace := by
  refine (pool_inv cache_rule (poolInv_init ⟨?_, ?_, ?_, ?_⟩) fun _ _ _ => trivial).shared
  · intro e he
    cases he
  · intro v expiry h
    rw [hempty] at h
    cases h
  · intro e he
    cases he
  · intro e he
    cases he

variable {tr : List (CacheEntry δ V ε O)} {e l q : CacheEntry δ V ε O} {v : V}

/-- **An answer that misses an edit** which had ended before the call began comes from a call that overlaps the edit. -/
theorem missed_overlaps (h : CacheLaw kind view ttl s tr) (he : e ∈ tr) (hsource : Source kind view ttl tr e v q)
    (hl : l ∈ tr) (hedit : Edited kind l) (hended : l.pos < e.begun) :
    l.pos < q.pos ∨ ∃ w, Filled kind view ttl tr q w v ∧ q.pos ≤ l.pos ∧ l.begun ≤ w.pos := by
  cases hsource with
  | own hread hcall hbegun hvalue =>
    left
    omega
  | cached w hfill hbefore hlive hkept =>
    by_cases hseen : l.pos < q.pos
    · exact Or.inl hseen
    · right
      refine ⟨w, hfill, Nat.le_of_not_lt hseen, ?_⟩
      by_contra hearly
      -- the edit would have dropped what `w` has put there
      obtain ⟨d, hd, -, hge, hle, hgone⟩ := h.edits l hl hedit
      have hbegun := (h.placed e he).1
      have hsame := hkept d hd (by omega) (by omega)
      rw [hgone, hfill.slot] at hsame
      cases hsame

end Run

end GigMarketplace.Core
