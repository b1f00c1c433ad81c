/-
Transactions over a row-locking database: programs, their atomic meaning, their interleaved execution, and
serializability. Nothing here names a program: a `Schema` says what is locked and stored, a `Store` how a database
state answers, and `Prog` is the code of one transaction.

A program is a tree of the statements a transaction issues:
- `require k`: a row with key `k` must exist (a plain SELECT, a foreign key);
- `lock k`: SELECT ... FOR UPDATE of one row, with the filter `pick` and, for NOWAIT, the error raised when the row is
  locked by another transaction; the rest of the program receives the row;
- `update`, `insert`: UPDATE and INSERT of one row; `append`: INSERT into an append-only log; `send`: a message to
  another process, not undone by a rollback;
- `done`, `fail`: commit, and roll back with an error.

`exec` runs a program alone (a failed program has no resulting state). `Machine` runs any number of them together:
events start a transaction, advance one by one statement, or roll one back; a transaction keeps its writes to itself
until it commits and keeps its row locks to its end; a statement that meets a foreign lock waits (the event does
nothing) or fails (NOWAIT), and a statement that waited looks at the row as it is once the lock is free.

Results:
- `replay_congr`, `replay_frame`: writes act on a row through that row alone, and leave every other row as it was;
- `minv_run`: at every point of every interleaving, each open transaction's statements so far are an atomic run of its
  own program on the committed database, and on any database that agrees with it on the rows it has locked;
- `serializable`: the committed database is the result of running exactly the committed transactions one after
  another, in the order of their commits.
-/
import Mathlib.Data.List.Basic
import Mathlib.Logic.Function.Basic
import Mathlib.Tactic.Common

namespace GigMarketplace.Core

structure Schema where
  Key : Type
  Row : Key → Type
  /-- entries of the append-only log -/
  Log : Type
  Msg : Type
  Err : Type

/-! ## Programs -/

inductive Prog (S : Schema) (A : Type) where
  | done (a : A)
  | fail (e : S.Err)
  | require (k : S.Key) (miss : S.Err) (next : Prog S A)
  | lock (k : S.Key) (busy : Option S.Err) (pick : S.Row k → Bool) (miss : S.Err) (next : S.Row k → Prog S A)
  | update (k : S.Key) (f : S.Row k → S.Row k) (next : Prog S A)
  | insert (k : S.Key) (r : S.Row k) (dup : S.Err) (next : Prog S A)
  | append (l : S.Log) (next : Prog S A)
  | send (m : S.Msg) (next : Prog S A)

namespace Prog

variable {S : Schema} {A B : Type}

def bind : Prog S A → (A → Prog S B) → Prog S B
  | done a, f => f a
  | fail e, _ => fail e
  | require k miss next, f => require k miss (next.bind f)
  | lock k busy pick miss next, f => lock k busy pick miss fun r => (next r).bind f
  | update k g next, f => update k g (next.bind f)
  | insert k r dup next, f => insert k r dup (next.bind f)
  | append l next, f => append l (next.bind f)
  | send m next, f => send m (next.bind f)

instance : Monad (Prog S) where
  pure := done
  bind := bind

def raise (e : S.Err) : Prog S A := fail e

/-- `if c: raise e` -/
def raiseIf (c : Prop) [Decidable c] (e : S.Err) : Prog S Unit := if c then fail e else done ()

/-- `get` without a lock, of which only the existence of the row is used; also the check of a foreign key -/
def present (k : S.Key) (miss : S.Err) : Prog S Unit := require k miss (done ())

/-- SELECT ... FOR UPDATE of the row `k`, if it passes the filter -/
def selectForUpdate (k : S.Key) (busy : Option S.Err) (pick : S.Row k → Bool) (miss : S.Err) : Prog S (S.Row k) :=
  lock k busy pick miss done

def set (k : S.Key) (f : S.Row k → S.Row k) : Prog S Unit := update k f (done ())

def create (k : S.Key) (r : S.Row k) (dup : S.Err) : Prog S Unit := insert k r dup (done ())

def record (l : S.Log) : Prog S Unit := append l (done ())

def delay (m : S.Msg) : Prog S Unit := send m (done ())

/-- `if c: p`, the result of `p` unused -/
def runIf (c : Prop) [Decidable c] (p : Prog S A) : Prog S Unit := if c then p >>= fun _ => done () else done ()

end Prog

/-! ## Databases -/

/-- How a database state of type `D` answers. A write to a row changes that row as a function of what it was, and no
other row; no write makes a row vanish. -/
structure Store (S : Schema) (D : Type) where
  get : D → (k : S.Key) → Option (S.Row k)
  update : D → (k : S.Key) → (S.Row k → S.Row k) → D
  insert : D → (k : S.Key) → S.Row k → D
  append : D → S.Log → D
  update_congr : ∀ {d d' k f}, get d k = get d' k → get (update d k f) k = get (update d' k f) k
  update_frame : ∀ {d k f k'}, k' ≠ k → get (update d k f) k' = get d k'
  update_isSome : ∀ {d k f k'}, (get (update d k f) k').isSome = (get d k').isSome
  insert_congr : ∀ {d d' k r}, get d k = get d' k → get (insert d k r) k = get (insert d' k r) k
  insert_frame : ∀ {d k r k'}, k' ≠ k → get (insert d k r) k' = get d k'
  insert_isSome : ∀ {d k r}, (get (insert d k r) k).isSome
  append_get : ∀ {d l k}, get (append d l) k = get d k

variable {S : Schema} {D A B O : Type}

/-- The program run alone: the result and the new state, or the error it raised. -/
@[simp] def exec (st : Store S D) : Prog S A → D → Except S.Err (A × D)
  | .done a, d => .ok (a, d)
  | .fail e, _ => .error e
  | .require k miss next, d => if (st.get d k).isSome then exec st next d else .error miss
  | .lock k _ pick miss next, d =>
    match st.get d k with
    | none => .error miss
    | some r => if pick r then exec st (next r) d else .error miss
  | .update k f next, d => exec st next (st.update d k f)
  | .insert k r dup next, d => if (st.get d k).isSome then .error dup else exec st next (st.insert d k r)
  | .append l next, d => exec st next (st.append d l)
  | .send _ next, d => exec st next d

/-- the program succeeds: it commits with the result `a` and the new state `d'` -/
def Runs (st : Store S D) (p : Prog S A) (d : D) (a : A) (d' : D) : Prop := exec st p d = .ok (a, d')

/-! ## What a successful program did

One lemma for each statement, tagged for simp: together they turn "this program succeeds with this result" into the
conditions it checked and the writes it made. -/

section Runs

variable {st : Store S D} {d d' : D} {a b : A} {k : S.Key} {e : S.Err} {u : Unit}

@[simp] theorem runs_pure : Runs st (pure a : Prog S A) d b d' ↔ b = a ∧ d' = d := by
  simp only [Runs, pure, exec, Except.ok.injEq, Prod.mk.injEq]
  exact ⟨fun ⟨h, h'⟩ => ⟨h.symm, h'.symm⟩, fun ⟨h, h'⟩ => ⟨h.symm, h'.symm⟩⟩

@[simp] theorem runs_raise : Runs st (Prog.raise e : Prog S A) d b d' ↔ False := by
  simp [Runs, Prog.raise]

@[simp] theorem runs_raiseIf {c : Prop} [Decidable c] : Runs st (Prog.raiseIf c e) d u d' ↔ ¬ c ∧ d' = d := by
  unfold Prog.raiseIf
  split_ifs with h
  · simp [Runs, h]
  · simp [Runs, h, eq_comm]

theorem exec_bind (p : Prog S A) (f : A → Prog S B) (d : D) :
    exec st (p >>= f) d = (exec st p d).bind fun x => exec st (f x.1) x.2 := by
  induction p generalizing d with
  | done a => rfl
  | fail e => rfl
  | require k miss next ih =>
    simp only [Bind.bind, Prog.bind, exec] at ih ⊢
    split_ifs
    · exact ih d
    · rfl
  | lock k busy pick miss next ih =>
    simp only [Bind.bind, Prog.bind, exec] at ih ⊢
    cases st.get d k with
    | none => rfl
    | some r =>
      simp only
      split_ifs
      · exact ih r d
      · rfl
  | update k g next ih => exact ih _
  | insert k r dup next ih =>
    simp only [Bind.bind, Prog.bind, exec] at ih ⊢
    split_ifs
    · rfl
    · exact ih _
  | append l next ih => exact ih _
  | send m next ih => exact ih d

@[simp] theorem runs_bind {p : Prog S A} {f : A → Prog S B} {b : B} :
    Runs st (p >>= f) d b d' ↔ ∃ a d₁, Runs st p d a d₁ ∧ Runs st (f a) d₁ b d' := by
  unfold Runs
  rw [exec_bind]
  cases h : exec st p d with
  | error e => simp [Except.bind]
  | ok x => simp [Except.bind, Prod.ext_iff, and_assoc]

@[simp] theorem runs_present {miss : S.Err} :
    Runs st (Prog.present k miss) d u d' ↔ (st.get d k).isSome ∧ d' = d := by
  simp only [Runs, Prog.present, exec]
  split_ifs with h
  · simp [h, eq_comm]
  · simp [h]

theorem runs_selectForUpdate {busy : Option S.Err} {pick : S.Row k → Bool} {miss : S.Err} {r : S.Row k} :
    Runs st (Prog.selectForUpdate k busy pick miss) d r d' ↔ st.get d k = some r ∧ pick r = true ∧ d' = d := by
  simp only [Runs, Prog.selectForUpdate, exec]
  cases h : st.get d k with
  | none => simp
  | some r' =>
    simp only [Option.some.injEq]
    split_ifs with hp
    · simp only [Except.ok.injEq, Prod.mk.injEq]
      exact ⟨fun ⟨h1, h2⟩ => ⟨h1, h1 ▸ hp, h2.symm⟩, fun ⟨h1, _, h2⟩ => ⟨h1, h2.symm⟩⟩
    · exact ⟨fun h => by simp at h, fun ⟨h1, h2, _⟩ => absurd (h1 ▸ h2) hp⟩

@[simp] theorem runs_set {f : S.Row k → S.Row k} : Runs st (Prog.set k f) d u d' ↔ d' = st.update d k f := by
  simp [Runs, Prog.set, eq_comm]

@[simp] theorem runs_create {r : S.Row k} {dup : S.Err} :
    Runs st (Prog.create k r dup) d u d' ↔ st.get d k = none ∧ d' = st.insert d k r := by
  simp only [Runs, Prog.create, exec]
  cases h : st.get d k <;> simp [eq_comm]

@[simp] theorem runs_record {l : S.Log} : Runs st (Prog.record l) d u d' ↔ d' = st.append d l := by
  simp [Runs, Prog.record, eq_comm]

@[simp] theorem runs_delay {m : S.Msg} : Runs st (Prog.delay m) d u d' ↔ d' = d := by
  simp [Runs, Prog.delay, eq_comm]

@[simp] theorem runs_runIf {c : Prop} [Decidable c] {p : Prog S A} :
    Runs st (Prog.runIf c p) d u d' ↔ (c ∧ ∃ a, Runs st p d a d') ∨ (¬ c ∧ d' = d) := by
  unfold Prog.runIf
  split_ifs with h
  · refine runs_bind.trans ⟨fun ⟨a, d₁, h1, h2⟩ => Or.inl ⟨h, a, ?_⟩, ?_⟩
    · obtain ⟨-, rfl⟩ := runs_pure.1 h2; exact h1
    · intro hrun
      rcases hrun with ⟨-, a, h1⟩ | ⟨h1, -⟩
      · exact ⟨a, d', h1, runs_pure.2 ⟨rfl, rfl⟩⟩
      · exact absurd h h1
  · simp only [h, false_and, not_false_eq_true, true_and, false_or]
    exact runs_pure.trans ⟨fun h => h.2, fun h => ⟨rfl, h⟩⟩

end Runs

/-! ## Interleaved execution -/

/-- one write of an open transaction -/
inductive Eff (S : Schema) where
  | update (k : S.Key) (f : S.Row k → S.Row k)
  | insert (k : S.Key) (r : S.Row k)
  | append (l : S.Log)

def Eff.apply (st : Store S D) (d : D) : Eff S → D
  | .update k f => st.update d k f
  | .insert k r => st.insert d k r
  | .append l => st.append d l

/-- the row a write changes -/
def Eff.key : Eff S → Option S.Key
  | .update k _ => some k
  | .insert k _ => some k
  | .append _ => none

def replay (st : Store S D) (w : List (Eff S)) (d : D) : D := w.foldl (Eff.apply st) d

/-- an open transaction: its label, what it still has to do, and its uncommitted writes -/
structure Active (S : Schema) (A O : Type) where
  op : O
  rest : Prog S A
  work : List (Eff S)

structure Conf (S : Schema) (D A O : Type) where
  db : D
  /-- row locks: the transaction that holds the row -/
  owner : S.Key → Option ℕ
  active : ℕ → Option (Active S A O)
  /-- labels of the committed transactions, in the order of their commits -/
  history : List O
  /-- messages sent, also by transactions that are still open or were rolled back -/
  outbox : List S.Msg

inductive Event (O : Type) where
  | start (t : ℕ) (o : O)
  | step (t : ℕ)
  | kill (t : ℕ)

def Conf.init (S : Schema) (A O : Type) (d : D) : Conf S D A O := ⟨d, fun _ => none, fun _ => none, [], []⟩

namespace Conf

variable [DecidableEq S.Key]

/-- no other transaction holds the row -/
def Free (c : Conf S D A O) (t : ℕ) (k : S.Key) : Prop := ∀ t', c.owner k = some t' → t' = t

instance (c : Conf S D A O) (t : ℕ) (k : S.Key) : Decidable (c.Free t k) :=
  match h : c.owner k with
  | none => .isTrue fun t' h' => by rw [h] at h'; cases h'
  | some u => decidable_of_iff (u = t) ⟨fun e t' h' => by rw [h] at h'; cases h'; exact e, fun f => f u h⟩

/-- transaction `t` ends: its locks are released -/
def finish (c : Conf S D A O) (t : ℕ) : Conf S D A O :=
  { c with
    owner := fun k => if c.owner k = some t then none else c.owner k
    active := Function.update c.active t none }

/-- transaction `t` goes on with `p` -/
def goOn (c : Conf S D A O) (t : ℕ) (a : Active S A O) (p : Prog S A) : Conf S D A O :=
  { c with active := Function.update c.active t (some { a with rest := p }) }

/-- transaction `t` locks `k`, makes the writes `w` and goes on with `p` -/
def acquire (c : Conf S D A O) (t : ℕ) (a : Active S A O) (k : S.Key) (w : List (Eff S)) (p : Prog S A) :
    Conf S D A O :=
  { c with
    owner := Function.update c.owner k (some t)
    active := Function.update c.active t (some { a with rest := p, work := a.work ++ w }) }

def commit (st : Store S D) (c : Conf S D A O) (t : ℕ) (a : Active S A O) : Conf S D A O :=
  { c.finish t with db := replay st a.work c.db, history := c.history ++ [a.op] }

/-- the next statement of transaction `t` -/
def advance (st : Store S D) (c : Conf S D A O) (t : ℕ) (a : Active S A O) : Conf S D A O :=
  match a.rest with
  | .done _ => c.commit st t a
  | .fail _ => c.finish t
  | .require k miss next => c.goOn t a (if (st.get (replay st a.work c.db) k).isSome then next else .fail miss)
  | .lock k busy pick miss next =>
    match st.get (replay st a.work c.db) k with
    | none => c.goOn t a (.fail miss)
    | some r =>
      if pick r then
        if c.Free t k then c.acquire t a k [] (next r)
        else match busy with
          | some e => c.goOn t a (.fail e)
          | none => c
      else c.goOn t a (.fail miss)
  | .update k f next => if c.Free t k then c.acquire t a k [.update k f] next else c
  | .insert k r dup next =>
    if c.Free t k then
      if (st.get (replay st a.work c.db) k).isSome then c.goOn t a (.fail dup)
      else c.acquire t a k [.insert k r] next
    else c
  | .append l next => c.goOn t { a with work := a.work ++ [.append l] } next
  | .send m next => { c.goOn t a next with outbox := c.outbox ++ [m] }

end Conf

/-- one event; `prog` is the code of a labelled transaction -/
def Machine.step [DecidableEq S.Key] (st : Store S D) (prog : O → Prog S A) (c : Conf S D A O) :
    Event O → Conf S D A O
  | .start t o =>
    match c.active t with
    | none => { c with active := Function.update c.active t (some ⟨o, prog o, []⟩) }
    | some _ => c
  | .step t =>
    match c.active t with
    | none => c
    | some a => c.advance st t a
  | .kill t => c.finish t

def Machine.run [DecidableEq S.Key] (st : Store S D) (prog : O → Prog S A) (c : Conf S D A O) (evs : List (Event O)) :
    Conf S D A O :=
  evs.foldl (Machine.step st prog) c

/-- running the labelled transactions one after another, each one succeeding -/
def Serial (st : Store S D) (prog : O → Prog S A) : D → List O → D → Prop
  | d, [], d' => d' = d
  | d, o :: os, d' => ∃ a d₁, Runs st (prog o) d a d₁ ∧ Serial st prog d₁ os d'

theorem Serial.snoc {st : Store S D} {prog : O → Prog S A} {d d' d'' : D} {os : List O} {o : O} {a : A}
    (h : Serial st prog d os d') (ho : Runs st (prog o) d' a d'') : Serial st prog d (os ++ [o]) d'' := by
  induction os generalizing d with
  | nil => cases h; exact ⟨a, d'', ho, rfl⟩
  | cons x os ih =>
    obtain ⟨b, d₁, hx, hs⟩ := h
    exact ⟨b, d₁, hx, ih hs⟩

/-! ## Dependence on the database -/

/-- `d'` has the rows of `d` for the keys in `P`, and no fewer rows elsewhere -/
structure Agree (st : Store S D) (P : S.Key → Prop) (d d' : D) : Prop where
  rows : ∀ k, P k → st.get d' k = st.get d k
  more : ∀ k, (st.get d k).isSome → (st.get d' k).isSome

section Replay

variable {st : Store S D}

theorem insert_isSome_iff (d : D) (k k' : S.Key) (r : S.Row k) :
    (st.get (st.insert d k r) k').isSome ↔ k' = k ∨ (st.get d k').isSome := by
  by_cases h : k' = k
  · subst h; simp [st.insert_isSome]
  · simp [st.insert_frame h, h]

theorem apply_congr {d d' : D} {k : S.Key} (e : Eff S) (h : st.get d' k = st.get d k) :
    st.get (e.apply st d') k = st.get (e.apply st d) k := by
  cases e with
  | update k' f =>
    by_cases hk : k = k'
    · subst hk; exact st.update_congr h
    · simp only [Eff.apply, st.update_frame hk, h]
  | insert k' r =>
    by_cases hk : k = k'
    · subst hk; exact st.insert_congr h
    · simp only [Eff.apply, st.insert_frame hk, h]
  | append l => simp only [Eff.apply, st.append_get, h]

theorem replay_congr (w : List (Eff S)) {d d' : D} {k : S.Key} (h : st.get d' k = st.get d k) :
    st.get (replay st w d') k = st.get (replay st w d) k := by
  induction w generalizing d d' with
  | nil => exact h
  | cons e w ih => exact ih (apply_congr e h)

theorem apply_more {d d' : D} (e : Eff S) (h : ∀ k, (st.get d k).isSome → (st.get d' k).isSome) (k : S.Key)
    (hk : (st.get (e.apply st d) k).isSome) : (st.get (e.apply st d') k).isSome := by
  cases e with
  | update k' f =>
    simp only [Eff.apply, st.update_isSome] at hk ⊢
    exact h k hk
  | insert k' r =>
    simp only [Eff.apply, insert_isSome_iff] at hk ⊢
    exact hk.imp_right (h k)
  | append l =>
    simp only [Eff.apply, st.append_get] at hk ⊢
    exact h k hk

theorem replay_more (w : List (Eff S)) {d d' : D} (h : ∀ k, (st.get d k).isSome → (st.get d' k).isSome) (k : S.Key)
    (hk : (st.get (replay st w d) k).isSome) : (st.get (replay st w d') k).isSome := by
  induction w generalizing d d' with
  | nil => exact h k hk
  | cons e w ih => exact ih (apply_more e h) hk

/-- writes leave the rows they do not name alone -/
theorem replay_frame (w : List (Eff S)) {d : D} {k : S.Key} (h : ∀ e ∈ w, e.key ≠ some k) :
    st.get (replay st w d) k = st.get d k := by
  induction w generalizing d with
  | nil => rfl
  | cons e w ih =>
    have he := h e List.mem_cons_self
    refine (ih fun e' he' => h e' (List.mem_cons_of_mem e he')).trans ?_
    cases e with
    | update k' f => exact st.update_frame fun hk => he (by rw [hk]; rfl)
    | insert k' r => exact st.insert_frame fun hk => he (by rw [hk]; rfl)
    | append l => exact st.append_get

/-- no row vanishes -/
theorem replay_isSome (w : List (Eff S)) {d : D} {k : S.Key} (h : (st.get d k).isSome) :
    (st.get (replay st w d) k).isSome := by
  induction w generalizing d with
  | nil => exact h
  | cons e w ih =>
    refine ih ?_
    cases e with
    | update k' f => simpa only [Eff.apply, st.update_isSome] using h
    | insert k' r => exact (insert_isSome_iff d k' k r).2 (Or.inr h)
    | append l => simpa only [Eff.apply, st.append_get] using h

theorem replay_append (w w' : List (Eff S)) (d : D) : replay st (w ++ w') d = replay st w' (replay st w d) := by
  simp [replay, List.foldl_append]

end Replay

/-! ## The invariant -/

section Inv

variable {st : Store S D} {prog : O → Prog S A}

/-- what holds of the open transaction `a` with number `t` -/
structure TxInv (st : Store S D) (prog : O → Prog S A) (c : Conf S D A O) (t : ℕ) (a : Active S A O) : Prop where
  /-- it writes only rows it has locked -/
  held : ∀ e ∈ a.work, ∀ k, e.key = some k → c.owner k = some t
  /-- unless it is rolling back, its statements so far are an atomic run of its program, on every database that
  agrees with the committed one on the rows it has locked -/
  sim : (∀ e, a.rest ≠ .fail e) → ∀ d, Agree st (fun k => c.owner k = some t) c.db d →
    exec st (prog a.op) d = exec st a.rest (replay st a.work d)

structure MInv (st : Store S D) (prog : O → Prog S A) (d₀ : D) (c : Conf S D A O) : Prop where
  locks : ∀ k t, c.owner k = some t → c.active t ≠ none
  tx : ∀ t a, c.active t = some a → TxInv st prog c t a
  serial : Serial st prog d₀ c.history c.db

theorem minv_init (d : D) : MInv st prog d (Conf.init S A O d) where
  locks := fun k t h => by simp [Conf.init] at h
  tx := fun t a h => by simp [Conf.init] at h
  serial := rfl

theorem agree_self (P : S.Key → Prop) (d : D) : Agree st P d d := ⟨fun _ _ => rfl, fun _ h => h⟩

/-- What another transaction does, short of a commit, leaves `t`'s invariant alone. -/
theorem TxInv.mono {c c' : Conf S D A O} {t : ℕ} {a : Active S A O} (h : TxInv st prog c t a) (hdb : c'.db = c.db)
    (how : ∀ k, c'.owner k = some t ↔ c.owner k = some t) : TxInv st prog c' t a where
  held := fun e he k hk => (how k).2 (h.held e he k hk)
  sim := fun hf d hd => h.sim hf d ⟨fun k hk => (hd.rows k ((how k).2 hk)).trans (by rw [hdb]),
    fun k hk => hd.more k (by rw [hdb]; exact hk)⟩

theorem finish_owner (c : Conf S D A O) {t u : ℕ} (hne : u ≠ t) (k : S.Key) :
    (c.finish t).owner k = some u ↔ c.owner k = some u := by
  simp only [Conf.finish]
  split_ifs with hk
  · rw [hk]; simp [Ne.symm hne]
  · rfl

/-- The end of transaction `t` without a commit. -/
theorem minv_finish {d₀ : D} {c : Conf S D A O} (h : MInv st prog d₀ c) (t : ℕ) : MInv st prog d₀ (c.finish t) where
  locks := fun k u hu => by
    by_cases hne : u = t
    · subst hne
      simp only [Conf.finish] at hu
      split_ifs at hu with hk
      exact absurd hu hk
    · simp only [Conf.finish, Function.update_of_ne hne]
      exact h.locks k u ((finish_owner c hne k).1 hu)
  tx := fun u a ha => by
    by_cases hne : u = t
    · subst hne; simp [Conf.finish] at ha
    · have ha' : c.active u = some a := by simpa [Conf.finish, Function.update_of_ne hne] using ha
      exact (h.tx u a ha').mono rfl fun k => finish_owner c hne k
  serial := h.serial

/-- The commit of transaction `t`: its locks kept every other transaction off the rows it read and wrote. -/
theorem minv_commit {d₀ : D} {c : Conf S D A O} (h : MInv st prog d₀ c) {t : ℕ} {a : Active S A O} {x : A}
    (ha : c.active t = some a) (hx : a.rest = .done x) : MInv st prog d₀ (c.commit st t a) where
  locks := (minv_finish h t).locks
  tx := fun u b hb => by
    have hne : u ≠ t := by rintro rfl; simp [Conf.commit, Conf.finish] at hb
    have hb' : c.active u = some b := by simpa [Conf.commit, Conf.finish, Function.update_of_ne hne] using hb
    have hu := h.tx u b hb'
    refine ⟨fun e he k hk => (finish_owner c hne k).2 (hu.held e he k hk), fun hf d hd => hu.sim hf d ⟨fun k hk => ?_,
      fun k hk => hd.more k (replay_isSome a.work hk)⟩⟩
    refine (hd.rows k ((finish_owner c hne k).2 hk)).trans (replay_frame a.work fun e he hek => hne ?_)
    have := (h.tx t a ha).held e he k hek
    exact Option.some.inj (hk.symm.trans this)
  serial := by
    have hsim := (h.tx t a ha).sim (by simp [hx]) c.db (agree_self _ _)
    rw [hx] at hsim
    exact h.serial.snoc hsim

/-- Transaction `t` goes on to `a'`, possibly after locking a free row; the committed database stays. -/
theorem minv_advance {d₀ : D} {c c' : Conf S D A O} {t : ℕ} {a' : Active S A O} (h : MInv st prog d₀ c)
    (hdb : c'.db = c.db) (hh : c'.history = c.history) (hact : c'.active = Function.update c.active t (some a'))
    (how : ∀ k u, u ≠ t → (c'.owner k = some u ↔ c.owner k = some u)) (ht : TxInv st prog c' t a') :
    MInv st prog d₀ c' where
  locks := fun k u hu => by
    rw [hact]
    by_cases hne : u = t
    · subst hne; simp
    · rw [Function.update_of_ne hne]
      exact h.locks k u ((how k u hne).1 hu)
  tx := fun u b hb => by
    rw [hact] at hb
    by_cases hne : u = t
    · subst hne
      rw [Function.update_self] at hb
      cases hb; exact ht
    · rw [Function.update_of_ne hne] at hb
      exact (h.tx u b hb).mono hdb fun k => how k u hne
  serial := by rw [hh, hdb]; exact h.serial

theorem minv_goOn {d₀ : D} {c : Conf S D A O} (h : MInv st prog d₀ c) {t : ℕ} {a : Active S A O} {p : Prog S A}
    (ht : TxInv st prog (c.goOn t a p) t { a with rest := p }) : MInv st prog d₀ (c.goOn t a p) :=
  minv_advance h rfl rfl rfl (fun _ _ _ => Iff.rfl) ht

/-- giving up keeps the invariant: a transaction that rolls back promises nothing -/
theorem minv_giveUp {d₀ : D} {c : Conf S D A O} (h : MInv st prog d₀ c) {t : ℕ} {a : Active S A O} (e : S.Err)
    (ha : c.active t = some a) : MInv st prog d₀ (c.goOn t a (.fail e)) :=
  minv_goOn h ⟨(h.tx t a ha).held, fun hf => absurd rfl (hf e)⟩

variable [DecidableEq S.Key]

theorem acquire_owner (c : Conf S D A O) {t u : ℕ} {a : Active S A O} {k : S.Key} {w : List (Eff S)} {p : Prog S A}
    (hfree : c.Free t k) (hne : u ≠ t) (k' : S.Key) :
    (c.acquire t a k w p).owner k' = some u ↔ c.owner k' = some u := by
  simp only [Conf.acquire, Function.update_apply]
  split_ifs with hk
  · subst hk
    refine ⟨fun h => ?_, fun h => absurd (hfree u h) hne⟩
    simp only [Option.some.injEq] at h; exact absurd h.symm hne
  · rfl

theorem minv_acquire {d₀ : D} {c : Conf S D A O} (h : MInv st prog d₀ c) {t : ℕ} {a : Active S A O} {k : S.Key}
    {w : List (Eff S)} {p : Prog S A} (ha : c.active t = some a) (hfree : c.Free t k)
    (hw : ∀ e ∈ w, e.key = some k)
    (hsim : ∀ d, st.get d k = st.get c.db k → (∀ e, a.rest ≠ .fail e) ∧
      exec st a.rest (replay st a.work d) = exec st p (replay st (a.work ++ w) d)) :
    MInv st prog d₀ (c.acquire t a k w p) := by
  refine minv_advance h rfl rfl rfl (fun k' u hne => acquire_owner c hfree hne k')
    ⟨fun e he k' hk' => ?_, fun _ d hd => ?_⟩
  · simp only [Conf.acquire, Function.update_apply]
    split_ifs with hkk
    · rfl
    · rcases List.mem_append.1 he with he | he
      · exact (h.tx t a ha).held e he k' hk'
      · exact absurd (Option.some.inj (hk'.symm.trans (hw e he))) hkk
  · obtain ⟨hf, he⟩ := hsim d (hd.rows k (by simp [Conf.acquire]))
    refine ((h.tx t a ha).sim hf d ⟨fun k' hk' => hd.rows k' ?_, hd.more⟩).trans he
    simp only [Conf.acquire, Function.update_apply]
    split_ifs
    · rfl
    · exact hk'

/-- One statement of an open transaction. -/
theorem minv_statement {d₀ : D} {c : Conf S D A O} (h : MInv st prog d₀ c) {t : ℕ} {a : Active S A O}
    (ha : c.active t = some a) : MInv st prog d₀ (c.advance st t a) := by
  have hta := h.tx t a ha
  unfold Conf.advance
  cases hr : a.rest with
  | done x => exact minv_commit h ha hr
  | fail e => exact minv_finish h t
  | require k miss next =>
    simp only
    split_ifs with hk
    · refine minv_goOn h ⟨hta.held, fun _ d hd => ?_⟩
      rw [hta.sim (by simp [hr]) d hd, hr]
      simp only [exec, if_pos (replay_more a.work hd.more k hk)]
    · exact minv_giveUp h miss ha
  | lock k busy pick miss next =>
    simp only
    cases hg : st.get (replay st a.work c.db) k with
    | none => exact minv_giveUp h miss ha
    | some r =>
      simp only
      split_ifs with hp hfree
      · refine minv_acquire h ha hfree (by simp) fun d hd => ⟨by simp [hr], ?_⟩
        rw [hr]
        simp only [exec, replay_congr a.work hd, hg, hp, if_true, List.append_nil]
      · cases busy with
        | none => exact h
        | some e => exact minv_giveUp h e ha
      · exact minv_giveUp h miss ha
  | update k f next =>
    simp only
    split_ifs with hfree
    · refine minv_acquire h ha hfree (by simp [Eff.key]) fun d _ => ⟨by simp [hr], ?_⟩
      rw [hr, replay_append]; rfl
    · exact h
  | insert k r dup next =>
    simp only
    split_ifs with hfree hk
    · exact minv_giveUp h dup ha
    · refine minv_acquire h ha hfree (by simp [Eff.key]) fun d hd => ⟨by simp [hr], ?_⟩
      rw [hr, replay_append]
      simp only [exec, replay_congr a.work hd, if_neg hk]; rfl
    · exact h
  | append l next =>
    refine minv_advance h rfl rfl rfl (fun _ _ _ => Iff.rfl) ⟨fun e he k hk => ?_, fun _ d hd => ?_⟩
    · rcases List.mem_append.1 he with he | he
      · exact hta.held e he k hk
      · rw [List.mem_singleton.1 he] at hk; cases hk
    · rw [hta.sim (by simp [hr]) d hd, hr, replay_append]; rfl
  | send m next =>
    refine minv_advance h rfl rfl rfl (fun _ _ _ => Iff.rfl) ⟨hta.held, fun _ d hd => ?_⟩
    rw [hta.sim (by simp [hr]) d hd, hr]; rfl

theorem minv_step {d₀ : D} {c : Conf S D A O} (h : MInv st prog d₀ c) (ev : Event O) :
    MInv st prog d₀ (Machine.step st prog c ev) := by
  cases ev with
  | start t o =>
    simp only [Machine.step]
    cases ha : c.active t with
    | some a => exact h
    | none => exact minv_advance h rfl rfl rfl (fun _ _ _ => Iff.rfl) ⟨by simp, fun _ d _ => rfl⟩
  | step t =>
    simp only [Machine.step]
    cases ha : c.active t with
    | none => exact h
    | some a => exact minv_statement h ha
  | kill t => exact minv_finish h t

theorem minv_run {d₀ : D} {c : Conf S D A O} (h : MInv st prog d₀ c) (evs : List (Event O)) :
    MInv st prog d₀ (Machine.run st prog c evs) := by
  induction evs generalizing c with
  | nil => exact h
  | cons ev evs ih => exact ih (minv_step h ev)

end Inv

/-! ## Serializability -/

section Serializability

variable [DecidableEq S.Key] (st : Store S D) (prog : O → Prog S A)

/-- **Serializability.** At every point of every interleaving, the committed database is the result of running
exactly the committed transactions one after another, in the order of their commits, each one succeeding. -/
theorem serializable (d : D) (evs : List (Event O)) :
    Serial st prog d (Machine.run st prog (Conf.init S A O d) evs).history
      (Machine.run st prog (Conf.init S A O d) evs).db :=
  (minv_run (minv_init d) evs).serial

end Serializability

end GigMarketplace.Core
