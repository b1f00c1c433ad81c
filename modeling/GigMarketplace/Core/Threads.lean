/-
Code without a transaction: calls that run statement by statement on one shared state, in any interleaving.

A call is a tree of statements (`Code`). A statement is atomic: it changes the state, and what it read of the state
before decides how the call goes on; no statement is undone. `Pool` runs any number of calls together and keeps a
trace with one entry for each statement: the call's operation, the states around the statement, and when the statement
was the call's last one, what the call returned or raised. An entry also says when its call began (`begun`, the
position of the call's first entry) and on which state (`origin`); no code reads these two.

Between statements nature may change the state too (a clock, a cache that drops keys).

Results:
- `each_bind`: what every statement of a composed code does (`Code.Each`);
- `query_bind_cases`, `act_bind_cases`: what the first statement of a composed code does;
- `returns_bind`, `returns_act` and the others: when a call that runs alone returns, and what it leaves;
- `pool_inv`: the invariant rule, with a part about the state and the trace and a part about each running call;
- `Tracks.save`: for a counter that calls load, change and save, how far the saves that overlap make it fall behind:
  it has counted every save exactly if no call loaded before another one's save that it does not follow.
-/
import Mathlib.Data.List.Basic
import Mathlib.Logic.Function.Basic
import Mathlib.Tactic.Common

namespace GigMarketplace.Core

/-! ## Code -/

inductive Code (σ ε A : Type) where
  | ret (a : A)
  | raise (e : ε)
  | stmt (f : σ → σ) (next : σ → Code σ ε A)

namespace Code

variable {σ ε A B : Type}

def bind : Code σ ε A → (A → Code σ ε B) → Code σ ε B
  | ret a, k => k a
  | raise e, _ => raise e
  | stmt f next, k => stmt f fun s => (next s).bind k

instance : Monad (Code σ ε) where
  pure := ret
  bind := bind

def raiseIf (c : Prop) [Decidable c] (e : ε) : Code σ ε Unit := if c then raise e else ret ()

theorem raiseIf_pos {c : Prop} [Decidable c] (h : c) (e : ε) : (raiseIf c e : Code σ ε Unit) = raise e := if_pos h

theorem raiseIf_neg {c : Prop} [Decidable c] (h : ¬ c) (e : ε) : (raiseIf c e : Code σ ε Unit) = ret () := if_neg h

/-- a check raises, or it does not hold and the code goes on -/
theorem raiseIf_bind_cases (c : Prop) [Decidable c] (e : ε) (k : Unit → Code σ ε B) :
    (raiseIf c e : Code σ ε Unit).bind k = raise e ∨ (¬ c ∧ (raiseIf c e : Code σ ε Unit).bind k = k ()) := by
  by_cases h : c
  · left
    rw [raiseIf_pos h]
    rfl
  · right
    rw [raiseIf_neg h]
    exact ⟨h, rfl⟩

/-- code that touches nothing -/
def ofExcept : Except ε A → Code σ ε A
  | .ok a => ret a
  | .error e => raise e

theorem ofExcept_ok_bind (a : A) (k : A → Code σ ε B) : (ofExcept (.ok a) >>= k) = k a := rfl

/-- a statement that reads -/
def query (q : σ → Except ε A) : Code σ ε A := stmt id fun s => ofExcept (q s)

/-- the state after `f`, which changes nothing when it raises -/
def effect (f : σ → Except ε (A × σ)) (s : σ) : σ :=
  match f s with
  | .ok x => x.2
  | .error _ => s

/-- a statement that reads and writes -/
def act (f : σ → Except ε (A × σ)) : Code σ ε A := stmt (effect f) fun s => ofExcept ((f s).map Prod.fst)

/-- a call that begins with a query: the state stays, and the query raises or the call goes on with what was read -/
theorem query_bind_cases {q : σ → Except ε A} {k : A → Code σ ε B} {f : σ → σ} {next : σ → Code σ ε B}
    (h : (query q >>= k) = stmt f next) (s : σ) :
    f s = s ∧ ((∃ e, q s = .error e ∧ next s = raise e) ∨ ∃ a, q s = .ok a ∧ next s = k a) := by
  injection h with hf hnext
  subst hf hnext
  refine ⟨rfl, ?_⟩
  change (∃ e, _ ∧ (ofExcept (q s)).bind k = _) ∨ ∃ a, _ ∧ (ofExcept (q s)).bind k = _
  rcases q s with e | a
  · exact Or.inl ⟨e, rfl, rfl⟩
  · exact Or.inr ⟨a, rfl, rfl⟩

/-- a call that begins with a statement that writes -/
theorem act_bind_cases {g : σ → Except ε (A × σ)} {k : A → Code σ ε B} {f : σ → σ} {next : σ → Code σ ε B}
    (h : (act g >>= k) = stmt f next) (s : σ) :
    (∃ e, g s = .error e ∧ f s = s ∧ next s = raise e) ∨ ∃ x, g s = .ok x ∧ f s = x.2 ∧ next s = k x.1 := by
  injection h with hf hnext
  subst hf hnext
  change (∃ e, _ ∧ effect g s = _ ∧ (ofExcept ((g s).map Prod.fst)).bind k = _) ∨
    ∃ x, _ ∧ effect g s = _ ∧ (ofExcept ((g s).map Prod.fst)).bind k = _
  unfold effect
  rcases g s with e | x
  · exact Or.inl ⟨e, rfl, rfl, rfl⟩
  · exact Or.inr ⟨x, rfl, rfl, rfl⟩

/-- what a call that has ended returned or raised -/
def result : Code σ ε A → Option (Except ε A)
  | ret a => some (.ok a)
  | raise e => some (.error e)
  | stmt _ _ => none

/-- code that has raised is not running -/
theorem ended_of_raise {c : Code σ ε A} {e : ε} (h : c = raise e) : c.result ≠ none := by
  rw [h]
  exact Option.some_ne_none _

/-- nor is code that has returned -/
theorem ended_of_ret {c : Code σ ε A} {a : A} (h : c = ret a) : c.result ≠ none := by
  rw [h]
  exact Option.some_ne_none _

theorem stmt_of_result {c : Code σ ε A} (h : c.result = none) : ∃ f next, c = stmt f next := by
  cases c with
  | ret a => cases h
  | raise e => cases h
  | stmt f next => exact ⟨f, next, rfl⟩

/-- every statement relates the states around it by `R` -/
def Each (R : σ → σ → Prop) : Code σ ε A → Prop
  | ret _ => True
  | raise _ => True
  | stmt f next => ∀ s, R s (f s) ∧ (next s).Each R

section Each

variable {R : σ → σ → Prop}

theorem each_bind {c : Code σ ε A} {k : A → Code σ ε B} (h : c.Each R) (hk : ∀ a, (k a).Each R) :
    (c >>= k).Each R := by
  induction c with
  | ret a => exact hk a
  | raise e => exact h
  | stmt f next ih => exact fun s => ⟨(h s).1, ih s (h s).2⟩

theorem each_raiseIf (c : Prop) [Decidable c] (e : ε) : (raiseIf c e : Code σ ε Unit).Each R := by
  unfold raiseIf
  split_ifs
  · trivial
  · trivial

theorem each_ofExcept (x : Except ε A) : (ofExcept x : Code σ ε A).Each R := by
  cases x <;> trivial

theorem each_query (hrefl : ∀ s, R s s) (q : σ → Except ε A) : (query q).Each R := fun s => ⟨hrefl s, each_ofExcept _⟩

theorem each_act (hrefl : ∀ s, R s s) {f : σ → Except ε (A × σ)} (h : ∀ s x, f s = .ok x → R s x.2) :
    (act f).Each R := by
  intro s
  refine ⟨?_, each_ofExcept _⟩
  unfold effect
  cases hx : f s with
  | ok x => exact h s x hx
  | error e => exact hrefl s

end Each

/-! ### Alone -/

/-- with nothing in between: what the call returns or raises, and the state it leaves -/
def run : Code σ ε A → σ → Except ε A × σ
  | ret a, s => (.ok a, s)
  | raise e, s => (.error e, s)
  | stmt f next, s => (next s).run (f s)

section Run

variable {s s' : σ} {a : A}

theorem run_bind (c : Code σ ε A) (k : A → Code σ ε B) (s : σ) :
    (c >>= k).run s = match c.run s with
      | (.ok a, s') => (k a).run s'
      | (.error e, s') => (.error e, s') := by
  induction c generalizing s with
  | ret a => rfl
  | raise e => rfl
  | stmt f next ih => exact ih s (f s)

theorem run_bind_ok {c : Code σ ε A} (h : c.run s = (.ok a, s')) (k : A → Code σ ε B) :
    (c >>= k).run s = (k a).run s' := by rw [run_bind, h]

theorem run_bind_error {c : Code σ ε A} {e : ε} (h : c.run s = (.error e, s')) (k : A → Code σ ε B) :
    (c >>= k).run s = (.error e, s') := by rw [run_bind, h]

theorem run_ofExcept (x : Except ε A) (s : σ) : (ofExcept x : Code σ ε A).run s = (x, s) := by
  cases x <;> rfl

theorem run_query (q : σ → Except ε A) (s : σ) : (query q).run s = (q s, s) := run_ofExcept _ _

theorem run_act (f : σ → Except ε (A × σ)) (s : σ) :
    (act f).run s = ((f s).map Prod.fst, effect f s) := run_ofExcept _ _

/-- the call returns `a` and leaves `s'` -/
def Returns (c : Code σ ε A) (s : σ) (a : A) (s' : σ) : Prop := c.run s = (.ok a, s')

@[simp] theorem returns_pure {b : A} : (pure b : Code σ ε A).Returns s a s' ↔ a = b ∧ s' = s := by
  change ((.ok b, s) : Except ε A × σ) = (.ok a, s') ↔ _
  rw [Prod.mk.injEq, Except.ok.injEq, eq_comm (a := b), eq_comm (a := s)]

@[simp] theorem returns_bind {c : Code σ ε A} {k : A → Code σ ε B} {b : B} :
    (c >>= k).Returns s b s' ↔ ∃ a s₁, c.Returns s a s₁ ∧ (k a).Returns s₁ b s' := by
  unfold Returns
  rw [run_bind]
  rcases c.run s with ⟨x, s₁⟩
  cases x with
  | ok a =>
    constructor
    · intro h
      exact ⟨a, s₁, rfl, h⟩
    · rintro ⟨a', s₁', ha, h⟩
      cases ha
      exact h
  | error e =>
    constructor
    · intro h
      cases h
    · rintro ⟨a', s₁', ha, -⟩
      cases ha

@[simp] theorem returns_raiseIf {c : Prop} [Decidable c] {e : ε} {u : Unit} :
    (raiseIf c e : Code σ ε Unit).Returns s u s' ↔ ¬ c ∧ s' = s := by
  by_cases h : c
  · rw [raiseIf_pos h]
    refine iff_of_false ?_ fun hn => hn.1 h
    intro hrun
    cases hrun
  · rw [raiseIf_neg h]
    exact returns_pure.trans (and_congr_left' (iff_of_true rfl h))

@[simp] theorem returns_ofExcept {x : Except ε A} : (ofExcept x : Code σ ε A).Returns s a s' ↔ x = .ok a ∧ s' = s := by
  unfold Returns
  rw [run_ofExcept, Prod.mk.injEq, eq_comm (a := s)]

@[simp] theorem returns_query {q : σ → Except ε A} : (query q).Returns s a s' ↔ q s = .ok a ∧ s' = s :=
  returns_ofExcept

theorem returns_act {f : σ → Except ε (A × σ)} : (act f).Returns s a s' ↔ f s = .ok (a, s') := by
  unfold Returns
  rw [run_act]
  unfold effect
  cases hx : f s with
  | error e => simp [Except.map]
  | ok x => simp [Except.map, Prod.ext_iff]

/-- code that only reads -/
theorem run_of_reads {c : Code σ ε A} (h : c.Each Eq) (s : σ) : (c.run s).2 = s := by
  induction c generalizing s with
  | ret a => rfl
  | raise e => rfl
  | stmt f next ih =>
    have hread : f s = s := (h s).1.symm
    calc (run (stmt f next) s).2 = ((next s).run (f s)).2 := rfl
      _ = ((next s).run s).2 := by rw [hread]
      _ = s := ih s (h s).2 s

/-- a call that raises has changed nothing -/
def Clean (c : Code σ ε A) : Prop := ∀ s e, (c.run s).1 = .error e → (c.run s).2 = s

theorem clean_act (f : σ → Except ε (A × σ)) : (act f).Clean := by
  intro s e h
  rw [run_act] at h ⊢
  unfold effect
  cases hx : f s with
  | error e' => rfl
  | ok x =>
    rw [hx] at h
    cases h

/-- reads first -/
theorem clean_bind {c : Code σ ε A} {k : A → Code σ ε B} (h : c.Each Eq) (hk : ∀ a, (k a).Clean) :
    (c >>= k).Clean := by
  intro s e he
  have hread := run_of_reads h s
  rw [run_bind] at he ⊢
  rcases hrun : c.run s with ⟨x, s₁⟩
  rw [hrun] at hread he
  cases hread
  cases x with
  | ok a => exact hk a _ e he
  | error e' => rfl

/-- nothing after -/
theorem clean_bind_pure {c : Code σ ε A} (h : c.Clean) (g : A → B) : (c >>= fun a => pure (g a)).Clean := by
  intro s e he
  have hclean := h s
  rw [run_bind] at he ⊢
  rcases hrun : c.run s with ⟨x, s₁⟩
  rw [hrun] at he hclean
  cases x with
  | ok a => cases he
  | error e' => exact hclean e' rfl

end Run

end Code

/-! ## Pools of running calls -/

section Pool

variable (σ ε A O : Type)

/-- a call under way -/
structure Running where
  op : O
  begun : ℕ
  origin : σ
  rest : Code σ ε A

/-- one executed statement -/
structure Entry where
  call : ℕ
  op : O
  begun : ℕ
  origin : σ
  /-- the position of the entry itself -/
  pos : ℕ
  before : σ
  after : σ
  /-- what the call returned or raised, if this was its last statement -/
  result : Option (Except ε A)

structure Pool where
  mem : σ
  running : ℕ → Option (Running σ ε A O)
  trace : List (Entry σ ε A O)

/-- events of a pool: a call starts with its first statement, a call goes on by one statement, nature acts -/
inductive PoolEvent (N : Type) where
  | start (c : ℕ) (o : O)
  | step (c : ℕ)
  | nature (n : N)

variable {σ ε A O} {N : Type}

def Pool.init (s : σ) : Pool σ ε A O := ⟨s, fun _ => none, []⟩

/-- the entry for the statement `f`, after which the call goes on with `rest` -/
def Running.entry (r : Running σ ε A O) (c pos : ℕ) (s : σ) (f : σ → σ) (rest : Code σ ε A) : Entry σ ε A O :=
  ⟨c, r.op, r.begun, r.origin, pos, s, f s, rest.result⟩

/-- the call `c`, at `r`, executes its next statement; a call that has ended leaves -/
def Pool.exec (p : Pool σ ε A O) (c : ℕ) (r : Running σ ε A O) : Pool σ ε A O :=
  match r.rest with
  | .stmt f next =>
    { mem := f p.mem
      running := Function.update p.running c
        (if (next p.mem).result.isSome then none else some { r with rest := next p.mem })
      trace := p.trace ++ [r.entry c p.trace.length p.mem f (next p.mem)] }
  | _ => { p with running := Function.update p.running c none }

variable (code : O → Code σ ε A) (nature : N → σ → σ)

def Pool.step (p : Pool σ ε A O) : PoolEvent O N → Pool σ ε A O
  | .start c o =>
    match p.running c with
    | none => p.exec c ⟨o, p.trace.length, p.mem, code o⟩
    | some _ => p
  | .step c =>
    match p.running c with
    | none => p
    | some r => p.exec c r
  | .nature n => { p with mem := nature n p.mem }

def Pool.run (p : Pool σ ε A O) (evs : List (PoolEvent O N)) : Pool σ ε A O := evs.foldl (Pool.step code nature) p

section Exec

variable {p : Pool σ ε A O} {c : ℕ} {r : Running σ ε A O} {f : σ → σ} {next : σ → Code σ ε A}

theorem Pool.exec_ended {x : Except ε A} (h : r.rest.result = some x) :
    p.exec c r = { p with running := Function.update p.running c none } := by
  unfold Pool.exec
  cases hrest : r.rest with
  | ret a => rfl
  | raise e => rfl
  | stmt f next =>
    rw [hrest] at h
    cases h

theorem Pool.exec_mem (h : r.rest = .stmt f next) : (p.exec c r).mem = f p.mem := by
  simp only [Pool.exec, h]

theorem Pool.exec_trace (h : r.rest = .stmt f next) :
    (p.exec c r).trace = p.trace ++ [r.entry c p.trace.length p.mem f (next p.mem)] := by
  simp only [Pool.exec, h]

theorem Pool.exec_running_ne (h : r.rest = .stmt f next) {c' : ℕ} (hc : c' ≠ c) :
    (p.exec c r).running c' = p.running c' := by
  simp only [Pool.exec, h, Function.update_of_ne hc]

/-- a call that is running afterwards is this one, if it goes on, or another one -/
theorem Pool.exec_running (h : r.rest = .stmt f next) {c' : ℕ} {r' : Running σ ε A O}
    (hr : (p.exec c r).running c' = some r') :
    (c' = c ∧ (next p.mem).result = none ∧ r' = { r with rest := next p.mem }) ∨ (c' ≠ c ∧ p.running c' = some r') := by
  by_cases hc : c' = c
  · left
    subst hc
    simp only [Pool.exec, h, Function.update_self] at hr
    cases hres : (next p.mem).result with
    | some x => simp [hres] at hr
    | none =>
      simp only [hres, Option.isSome_none, Bool.false_eq_true, if_false, Option.some.injEq] at hr
      exact ⟨rfl, rfl, hr.symm⟩
  · rw [Pool.exec_running_ne h hc] at hr
    exact Or.inr ⟨hc, hr⟩

/-- an executed statement is the new entry of the trace -/
theorem Pool.exec_entry (p : Pool σ ε A O) (c : ℕ) (r : Running σ ε A O) :
    ((p.exec c r).mem = p.mem ∧ (p.exec c r).trace = p.trace) ∨
      ∃ e, (p.exec c r).trace = p.trace ++ [e] ∧ e.before = p.mem ∧ e.after = (p.exec c r).mem := by
  cases hended : r.rest.result with
  | some x =>
    rw [Pool.exec_ended hended]
    exact Or.inl ⟨rfl, rfl⟩
  | none =>
    obtain ⟨f, next, hrest⟩ := Code.stmt_of_result hended
    rw [Pool.exec_trace hrest, Pool.exec_mem hrest]
    exact Or.inr ⟨_, rfl, rfl, rfl⟩

/-- without nature the state changes only by the entries of the trace -/
theorem Pool.step_entry (code : O → Code σ ε A) (nature : N → σ → σ) (p : Pool σ ε A O) (ev : PoolEvent O N)
    (hev : ∀ n, ev ≠ .nature n) :
    ((p.step code nature ev).mem = p.mem ∧ (p.step code nature ev).trace = p.trace) ∨
      ∃ e, (p.step code nature ev).trace = p.trace ++ [e] ∧ e.before = p.mem ∧
        e.after = (p.step code nature ev).mem := by
  cases ev with
  | start c o =>
    simp only [Pool.step]
    split
    · exact p.exec_entry c _
    · exact Or.inl ⟨rfl, rfl⟩
  | step c =>
    simp only [Pool.step]
    split
    · exact Or.inl ⟨rfl, rfl⟩
    · exact p.exec_entry c _
  | nature n => exact absurd rfl (hev n)

end Exec

/-! ### The invariant rule -/

/-- `I` is what holds of the state and the trace, `K` of each running call -/
structure PoolInv (I : σ → List (Entry σ ε A O) → Prop) (K : σ → List (Entry σ ε A O) → Running σ ε A O → Prop)
    (p : Pool σ ε A O) : Prop where
  shared : I p.mem p.trace
  calls : ∀ c r, p.running c = some r → K p.mem p.trace r

/-- the call `r` may execute a statement now: it begins, or is under way -/
def Ready (Ok : O → Prop) (K : σ → List (Entry σ ε A O) → Running σ ε A O → Prop) (s : σ)
    (tr : List (Entry σ ε A O)) (r : Running σ ε A O) : Prop :=
  (∃ o, Ok o ∧ r = ⟨o, tr.length, s, code o⟩) ∨ K s tr r

/-- the call `c`, at `r`, executes the statement `f` at `s`, and both parts hold afterwards -/
structure Running.Advances (I : σ → List (Entry σ ε A O) → Prop)
    (K : σ → List (Entry σ ε A O) → Running σ ε A O → Prop) (r : Running σ ε A O) (c : ℕ) (s : σ)
    (tr : List (Entry σ ε A O)) (f : σ → σ) (next : σ → Code σ ε A) : Prop where
  shared : I (f s) (tr ++ [r.entry c tr.length s f (next s)])
  goes : (next s).result = none → K (f s) (tr ++ [r.entry c tr.length s f (next s)]) { r with rest := next s }

/-- what has to be shown: what a statement does to the shared part, to its own call and to another one, and the same
for nature -/
structure PoolRule (Ok : O → Prop) (I : σ → List (Entry σ ε A O) → Prop)
    (K : σ → List (Entry σ ε A O) → Running σ ε A O → Prop) : Prop where
  own : ∀ s tr c r f next, I s tr → Ready code Ok K s tr r → r.rest = .stmt f next → r.Advances I K c s tr f next
  others : ∀ s tr c r f next r', I s tr → Ready code Ok K s tr r → r.rest = .stmt f next → K s tr r' →
    K (f s) (tr ++ [r.entry c tr.length s f (next s)]) r'
  natural : ∀ s tr n, I s tr → I (nature n s) tr ∧ ∀ r, K s tr r → K (nature n s) tr r

section Rule

variable {code} {nature} {Ok : O → Prop} {I : σ → List (Entry σ ε A O) → Prop}
  {K : σ → List (Entry σ ε A O) → Running σ ε A O → Prop} {p : Pool σ ε A O}

theorem PoolInv.exec (hrule : PoolRule code nature Ok I K) (h : PoolInv I K p) {c : ℕ} {r : Running σ ε A O}
    (hr : Ready code Ok K p.mem p.trace r) : PoolInv I K (p.exec c r) := by
  cases hended : r.rest.result with
  | some x =>
    rw [Pool.exec_ended hended]
    refine ⟨h.shared, fun c' r' hr' => ?_⟩
    by_cases hc : c' = c
    · subst hc
      simp at hr'
    · simp only [Function.update_of_ne hc] at hr'
      exact h.calls c' r' hr'
  | none =>
    obtain ⟨f, next, hrest⟩ := Code.stmt_of_result hended
    obtain ⟨hshared, hown⟩ := hrule.own p.mem p.trace c r f next h.shared hr hrest
    refine ⟨?_, fun c' r' hr' => ?_⟩
    · rw [Pool.exec_mem hrest, Pool.exec_trace hrest]
      exact hshared
    · rw [Pool.exec_mem hrest, Pool.exec_trace hrest]
      rcases Pool.exec_running hrest hr' with ⟨-, hres, rfl⟩ | ⟨-, hother⟩
      · exact hown hres
      · exact hrule.others p.mem p.trace c r f next r' h.shared hr hrest (h.calls c' r' hother)

theorem PoolInv.step (hrule : PoolRule code nature Ok I K) (h : PoolInv I K p) {ev : PoolEvent O N}
    (hok : ∀ c o, ev = .start c o → Ok o) : PoolInv I K (p.step code nature ev) := by
  cases ev with
  | start c o =>
    cases hc : p.running c with
    | some r =>
      simp only [Pool.step, hc]
      exact h
    | none =>
      simp only [Pool.step, hc]
      exact h.exec hrule (Or.inl ⟨o, hok c o rfl, rfl⟩)
  | step c =>
    cases hc : p.running c with
    | none =>
      simp only [Pool.step, hc]
      exact h
    | some r =>
      simp only [Pool.step, hc]
      exact h.exec hrule (Or.inr (h.calls c r hc))
  | nature n =>
    obtain ⟨h1, h2⟩ := hrule.natural p.mem p.trace n h.shared
    exact ⟨h1, fun c r hr => h2 r (h.calls c r hr)⟩

/-- **The invariant rule** for interleaved calls. -/
theorem pool_inv (hrule : PoolRule code nature Ok I K) (h : PoolInv I K p) {evs : List (PoolEvent O N)}
    (hok : ∀ c o, .start c o ∈ evs → Ok o) : PoolInv I K (p.run code nature evs) := by
  induction evs generalizing p with
  | nil => exact h
  | cons ev evs ih =>
    refine ih (h.step hrule fun c o he => ?_) fun c o hm => hok c o (List.mem_cons_of_mem _ hm)
    exact hok c o (he ▸ List.mem_cons_self)

/-- a statement of a call whose code is made of statements in `R` -/
theorem Ready.each {R : σ → σ → Prop} {s : σ} {tr : List (Entry σ ε A O)} {r : Running σ ε A O} {f : σ → σ}
    {next : σ → Code σ ε A} (hr : Ready code Ok K s tr r) (hrest : r.rest = .stmt f next)
    (hcode : ∀ o, Ok o → (code o).Each R) (hK : K s tr r → r.rest.Each R) (s' : σ) :
    R s' (f s') ∧ (next s').Each R := by
  have heach : r.rest.Each R := by
    rcases hr with ⟨o, hok, rfl⟩ | hrun
    · exact hcode o hok
    · exact hK hrun
  rw [hrest] at heach
  exact heach s'

theorem poolInv_init {s : σ} (h : I s []) : PoolInv I K (Pool.init s : Pool σ ε A O) :=
  ⟨h, fun c r hr => by simp [Pool.init] at hr⟩

end Rule

end Pool

/-! ## Load, change, save -/

section Counter

variable {V X : Type}

/-- a save of `x` by a call that loaded at the position `begun` -/
structure Save (X : Type) where
  value : X
  begun : ℕ
  pos : ℕ

/-- each call loads after the saves before its own -/
def Sequential (saves : List (Save X)) : Prop := saves.Pairwise fun s s' => s.pos < s'.begun

/-- the value when every save starts from the one before -/
def accumulate (upd : V → X → V) (v₀ : V) (saves : List (Save X)) : V := saves.foldl (fun v s => upd v s.value) v₀

/-- `v` is what the saves have made of `v₀`: a count that may have fallen behind, and has not if they were sequential -/
structure Tracks (upd : V → X → V) (count : V → ℕ) (v₀ : V) (saves : List (Save X)) (v : V) : Prop where
  le : count v ≤ count v₀ + saves.length
  counted : count v = count v₀ + saves.length ↔ Sequential saves
  value : Sequential saves → v = accumulate upd v₀ saves

variable {upd : V → X → V} {count : V → ℕ} {v₀ v : V} {saves : List (Save X)}

theorem tracks_nil : Tracks upd count v₀ [] v₀ :=
  ⟨Nat.le_refl _, iff_of_true rfl List.Pairwise.nil, fun _ => rfl⟩

/-- a counter that has kept up is the accumulated value, and only then -/
theorem Tracks.iff (h : Tracks upd count v₀ saves v) :
    (count v = count v₀ + saves.length ∧ v = accumulate upd v₀ saves) ↔ Sequential saves :=
  ⟨fun hv => h.counted.1 hv.1, fun hs => ⟨h.counted.2 hs, h.value hs⟩⟩

/-- **One more save**, by a call that loaded `v` at the position `begun`. -/
theorem Tracks.save (hcount : ∀ v x, count (upd v x) = count v + 1) {s : Save X}
    (h : Tracks upd count v₀ (saves.filter fun s' => s'.pos < s.begun) v) :
    Tracks upd count v₀ (saves ++ [s]) (upd v s.value) := by
  have hsub : (saves.filter fun s' => s'.pos < s.begun).length ≤ saves.length := List.length_filter_le _ _
  have hseq : Sequential (saves ++ [s]) ↔ Sequential saves ∧ ∀ s' ∈ saves, s'.pos < s.begun := by
    simp [Sequential, List.pairwise_append]
  -- nothing was missed: the call saw every save so far
  have hall : (∀ s' ∈ saves, s'.pos < s.begun) → (saves.filter fun s' => s'.pos < s.begun) = saves := fun hs =>
    List.filter_eq_self.2 fun s' hs' => decide_eq_true (hs s' hs')
  refine ⟨?_, ?_, ?_⟩
  · rw [hcount, List.length_append, List.length_singleton]
    have := h.le
    omega
  · rw [hcount, List.length_append, List.length_singleton, hseq]
    constructor
    · intro he
      have hlen : (saves.filter fun s' => s'.pos < s.begun).length = saves.length := by
        have := h.le
        omega
      have hsaw : ∀ s' ∈ saves, s'.pos < s.begun := fun s' hs' =>
        of_decide_eq_true (List.length_filter_eq_length_iff.1 hlen s' hs')
      have hkept := hall hsaw
      rw [hkept] at h
      exact ⟨h.counted.1 (by omega), hsaw⟩
    · intro hs
      have hkept := hall hs.2
      rw [hkept] at h
      have := h.counted.2 hs.1
      omega
  · intro hs
    obtain ⟨hold, hsaw⟩ := hseq.1 hs
    have hkept := hall hsaw
    rw [hkept] at h
    rw [h.value hold]
    simp [accumulate]

end Counter

end GigMarketplace.Core
