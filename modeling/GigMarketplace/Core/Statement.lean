/-
One statement of a transaction (`Core/RowLock.lean`): what it makes of the transaction itself, and what it leaves of the
other ones.

Results:
- `advance_cases`: a statement waits, ends the transaction, sends a message, or goes on to one of the programs that the
  statement may go on to (`Prog.Next`); `advance_open`: one that leaves its transaction open leaves it its locks;
- `others_step`: an event of one transaction leaves another one as it is, with its locks and the rows it has locked;
- `phases_step`: a description of open transactions by what they have locked and what they still have to do, if it
  holds at the start and each statement of a transaction keeps its own, holds in every interleaving;
- `machine_always_congr`: two properties of events that agree wherever an invariant holds, in every run.
-/
import GigMarketplace.Core.History

namespace GigMarketplace.Core

variable {S : Schema} {D A O : Type}

/-! ## Programs -/

/-- a statement in the middle of a transaction, which sends nothing -/
def Prog.Inner : Prog S A → Prop
  | .done _ => False
  | .fail _ => False
  | .send _ _ => False
  | _ => True

/-- what may be left of a program after a statement -/
inductive Prog.Next : Prog S A → Prog S A → Prop where
  | require (k : S.Key) (miss : S.Err) (next : Prog S A) : Next (.require k miss next) next
  | requireFail (k : S.Key) (miss : S.Err) (next : Prog S A) : Next (.require k miss next) (.fail miss)
  | lock (k : S.Key) (busy : Option S.Err) (pick : S.Row k → Bool) (miss : S.Err) (next : S.Row k → Prog S A)
      (r : S.Row k) : Next (.lock k busy pick miss next) (next r)
  | lockMiss (k : S.Key) (busy : Option S.Err) (pick : S.Row k → Bool) (miss : S.Err) (next : S.Row k → Prog S A) :
      Next (.lock k busy pick miss next) (.fail miss)
  | lockBusy (k : S.Key) (e : S.Err) (pick : S.Row k → Bool) (miss : S.Err) (next : S.Row k → Prog S A) :
      Next (.lock k (some e) pick miss next) (.fail e)
  | update (k : S.Key) (f : S.Row k → S.Row k) (next : Prog S A) : Next (.update k f next) next
  | insert (k : S.Key) (r : S.Row k) (dup : S.Err) (next : Prog S A) : Next (.insert k r dup next) next
  | insertFail (k : S.Key) (r : S.Row k) (dup : S.Err) (next : Prog S A) : Next (.insert k r dup next) (.fail dup)
  | append (l : S.Log) (next : Prog S A) : Next (.append l next) next

/-- what a transaction whose body has ended returns or raises -/
def Prog.outcome : Prog S A → Option (Except S.Err A)
  | .done a => some (.ok a)
  | .fail e => some (.error e)
  | _ => none

/-- the body of transaction `t` has ended -/
def Conf.outcome (c : Conf S D A O) (t : ℕ) : Option (Except S.Err A) := (c.active t).bind fun a => a.rest.outcome

/-- every error of the program satisfies `Q` -/
def Prog.Errs (Q : S.Err → Prop) : Prog S A → Prop
  | .done _ => True
  | .fail e => Q e
  | .require _ miss next => Q miss ∧ next.Errs Q
  | .lock _ busy _ miss next => (∀ e, busy = some e → Q e) ∧ Q miss ∧ ∀ r, (next r).Errs Q
  | .update _ _ next => next.Errs Q
  | .insert _ _ dup next => Q dup ∧ next.Errs Q
  | .append _ next => next.Errs Q
  | .send _ next => next.Errs Q

section Programs

variable {B : Type} {Q : S.Err → Prop} {p p' : Prog S A}

theorem errs_bind {f : A → Prog S B} (hp : p.Errs Q) (hf : ∀ a, (f a).Errs Q) : (p >>= f).Errs Q := by
  induction p with
  | done a => exact hf a
  | fail e => exact hp
  | require k miss next ih => exact ⟨hp.1, ih hp.2⟩
  | lock k busy pick miss next ih => exact ⟨hp.1, hp.2.1, fun r => ih r (hp.2.2 r)⟩
  | update k g next ih => exact ih hp
  | insert k r dup next ih => exact ⟨hp.1, ih hp.2⟩
  | append l next ih => exact ih hp
  | send m next ih => exact ih hp

theorem errs_raiseIf {c : Prop} [Decidable c] {e : S.Err} (h : Q e) : (Prog.raiseIf c e : Prog S Unit).Errs Q := by
  unfold Prog.raiseIf
  split_ifs
  · exact h
  · trivial

theorem Prog.Errs.outcome (h : p.Errs Q) {e : S.Err} (he : p.outcome = some (.error e)) : Q e := by
  cases p with
  | fail e' =>
    cases he
    exact h
  | _ => cases he

theorem Prog.Next.errs (h : p.Next p') (hp : p.Errs Q) : p'.Errs Q := by
  cases h with
  | require => exact hp.2
  | requireFail => exact hp.1
  | lock k busy pick miss next r => exact hp.2.2 r
  | lockMiss => exact hp.2.1
  | lockBusy k e => exact hp.1 e rfl
  | update => exact hp
  | insert => exact hp.2
  | insertFail => exact hp.1
  | append => exact hp

end Programs

/-! ## Statements -/

section Statements

variable {st : Store S D} {prog : O → Prog S A} {d₀ : D} {c : Conf S D A O} {t u : ℕ} {a : Active S A O}

/-! ### What is left of another transaction -/

/-- the transaction that an event is about -/
def Event.tx : Event O → ℕ
  | .start t _ => t
  | .step t => t
  | .kill t => t

/-- what is left of the transaction `u`, with its locks and the rows it has locked -/
structure Untouched (st : Store S D) (c c' : Conf S D A O) (u : ℕ) : Prop where
  active : c'.active u = c.active u
  owner : ∀ k, c'.owner k = some u ↔ c.owner k = some u
  rows : ∀ k, c.owner k = some u → st.get c'.db k = st.get c.db k
  more : ∀ k, (st.get c.db k).isSome → (st.get c'.db k).isSome

theorem untouched_finish (st : Store S D) (c : Conf S D A O) (hu : u ≠ t) : Untouched st c (c.finish t) u where
  active := Function.update_of_ne hu _ _
  owner := finish_owner c hu
  rows _ _ := rfl
  more _ h := h

theorem untouched_commit (h : MInv st prog d₀ c) (ha : c.active t = some a) (hu : u ≠ t) :
    Untouched st c (c.commit st t a) u where
  active := Function.update_of_ne hu _ _
  owner := finish_owner c hu
  rows k hk := by
    refine replay_frame a.work fun e he hek => hu ?_
    have hheld := (h.tx t a ha).held e he k hek
    exact Option.some.inj (hk.symm.trans hheld)
  more _ hk := replay_isSome a.work hk

variable [DecidableEq S.Key]

/-! ### One statement -/

/-- what one statement of an open transaction does -/
inductive Advance (st : Store S D) (c : Conf S D A O) (t : ℕ) (a : Active S A O) : Prop where
  | waits (hinner : a.rest.Inner) (h : c.advance st t a = c)
  | commits (x : A) (hrest : a.rest = .done x) (h : c.advance st t a = c.commit st t a)
  | rolls (e : S.Err) (hrest : a.rest = .fail e) (h : c.advance st t a = c.finish t)
  | sends (msg : S.Msg) (next : Prog S A) (hrest : a.rest = .send msg next) (hdb : (c.advance st t a).db = c.db)
      (howner : (c.advance st t a).owner = c.owner)
      (hactive : (c.advance st t a).active = Function.update c.active t (some { a with rest := next }))
  | goes (hinner : a.rest.Inner) (a' : Active S A O) (hop : a'.op = a.op) (hnext : a.rest.Next a'.rest)
      (hdb : (c.advance st t a).db = c.db)
      (howner : ∀ k v, v ≠ t → ((c.advance st t a).owner k = some v ↔ c.owner k = some v))
      (hkeeps : ∀ k, c.owner k = some t → (c.advance st t a).owner k = some t)
      (hactive : (c.advance st t a).active = Function.update c.active t (some a'))

theorem Advance.goOn {p : Prog S A} (hinner : a.rest.Inner) (h : c.advance st t a = c.goOn t a p)
    (hnext : a.rest.Next p) : Advance st c t a :=
  .goes hinner { a with rest := p } rfl hnext (by rw [h]; rfl) (fun _ _ _ => by rw [h]; rfl)
    (fun _ hk => by rw [h]; exact hk) (by rw [h]; rfl)

theorem Advance.acquire {p : Prog S A} {k : S.Key} {w : List (Eff S)} (hinner : a.rest.Inner) (hfree : c.Free t k)
    (h : c.advance st t a = c.acquire t a k w p) (hnext : a.rest.Next p) : Advance st c t a := by
  refine .goes hinner { a with rest := p, work := a.work ++ w } rfl hnext (by rw [h]; rfl) (fun k' v hv => ?_)
    (fun k' hk' => ?_) (by rw [h]; rfl)
  · rw [h]
    exact acquire_owner c hfree hv k'
  · rw [h]
    simp only [Conf.acquire, Function.update_apply]
    split_ifs
    · rfl
    · exact hk'

/-- **What one statement does.** -/
theorem advance_cases (st : Store S D) (c : Conf S D A O) (t : ℕ) (a : Active S A O) : Advance st c t a := by
  obtain ⟨op, rest, work⟩ := a
  cases rest with
  | done x => exact .commits x rfl rfl
  | fail e => exact .rolls e rfl rfl
  | send msg next => exact .sends msg next rfl rfl rfl rfl
  | append l next =>
    exact .goes trivial ⟨op, next, work ++ [.append l]⟩ rfl (.append l next) rfl (fun _ _ _ => Iff.rfl)
      (fun _ hk => hk) rfl
  | require k miss next =>
    refine .goOn trivial rfl ?_
    split_ifs
    · exact .require k miss next
    · exact .requireFail k miss next
  | update k f next =>
    by_cases hfree : c.Free t k
    · exact .acquire trivial hfree (if_pos hfree) (.update k f next)
    · exact .waits trivial (if_neg hfree)
  | insert k r dup next =>
    by_cases hfree : c.Free t k
    · by_cases hthere : (st.get (replay st work c.db) k).isSome
      · exact .goOn trivial ((if_pos hfree).trans (if_pos hthere)) (.insertFail k r dup next)
      · exact .acquire trivial hfree ((if_pos hfree).trans (if_neg hthere)) (.insert k r dup next)
    · exact .waits trivial (if_neg hfree)
  | lock k busy pick miss next =>
    cases hget : st.get (replay st work c.db) k with
    | none => exact .goOn trivial (by simp only [Conf.advance, hget]) (.lockMiss k busy pick miss next)
    | some r =>
      by_cases hpick : pick r = true
      · by_cases hfree : c.Free t k
        · refine .acquire (w := []) trivial hfree ?_ (.lock k busy pick miss next r)
          simp only [Conf.advance, hget, if_pos hpick, if_pos hfree]
        · cases busy with
          | none => exact .waits trivial (by simp only [Conf.advance, hget, if_pos hpick, if_neg hfree])
          | some e =>
            refine .goOn trivial ?_ (.lockBusy k e pick miss next)
            simp only [Conf.advance, hget, if_pos hpick, if_neg hfree]
      · refine .goOn trivial ?_ (.lockMiss k busy pick miss next)
        simp only [Conf.advance, hget, if_neg hpick]

/-- NOWAIT: the row is missing, or is locked now, or another transaction holds it -/
theorem advance_nowait (st : Store S D) (c : Conf S D A O) (t : ℕ) (a : Active S A O) {k : S.Key} {e miss : S.Err}
    {next : S.Row k → Prog S A} (hrest : a.rest = .lock k (some e) (fun _ => true) miss next) :
    (st.get (replay st a.work c.db) k = none ∧ c.advance st t a = c.goOn t a (.fail miss)) ∨
      (∃ r, st.get (replay st a.work c.db) k = some r ∧ c.Free t k ∧ c.advance st t a = c.acquire t a k [] (next r)) ∨
      ∃ r, st.get (replay st a.work c.db) k = some r ∧ ¬ c.Free t k ∧ c.advance st t a = c.goOn t a (.fail e) := by
  cases hget : st.get (replay st a.work c.db) k with
  | none => exact Or.inl ⟨rfl, by simp only [Conf.advance, hrest, hget]⟩
  | some r =>
    right
    by_cases hfree : c.Free t k
    · exact Or.inl ⟨r, rfl, hfree, by simp only [Conf.advance, hrest, hget, if_pos hfree, if_true]⟩
    · exact Or.inr ⟨r, rfl, hfree, by simp only [Conf.advance, hrest, hget, if_neg hfree, if_true]⟩

/-- what one statement does that leaves its transaction open -/
structure StaysOpen (st : Store S D) (c : Conf S D A O) (t : ℕ) (a a' : Active S A O) : Prop where
  op : a'.op = a.op
  rest : a'.rest = a.rest ∨ (∃ msg, a.rest = .send msg a'.rest) ∨ a.rest.Next a'.rest
  db : (c.advance st t a).db = c.db
  holds : ∀ k, c.owner k = some t → (c.advance st t a).owner k = some t

theorem advance_open {a' : Active S A O} (ha : c.active t = some a) (ha' : (c.advance st t a).active t = some a') :
    StaysOpen st c t a a' := by
  cases advance_cases st c t a with
  | waits hinner hwaits =>
    rw [hwaits, ha] at ha'
    cases ha'
    exact ⟨rfl, Or.inl rfl, by rw [hwaits], fun k hk => by rw [hwaits]; exact hk⟩
  | commits x hrest hcommit =>
    rw [hcommit] at ha'
    simp [Conf.commit, Conf.finish] at ha'
  | rolls e hrest hfinish =>
    rw [hfinish] at ha'
    simp [Conf.finish] at ha'
  | sends msg next hrest hdb howner hactive =>
    rw [hactive, Function.update_self] at ha'
    cases ha'
    exact ⟨rfl, Or.inr (Or.inl ⟨msg, hrest⟩), hdb, fun k hk => by rw [howner]; exact hk⟩
  | goes hinner a'' hop hnext hdb howner hkeeps hactive =>
    rw [hactive, Function.update_self] at ha'
    cases ha'
    exact ⟨hop, Or.inr (Or.inr hnext), hdb, hkeeps⟩

theorem StaysOpen.errs {Q : S.Err → Prop} {a' : Active S A O} (h : StaysOpen st c t a a') (hQ : a.rest.Errs Q) :
    a'.rest.Errs Q := by
  rcases h.rest with hsame | ⟨msg, hsend⟩ | hnext
  · rw [hsame]
    exact hQ
  · rw [hsend] at hQ
    exact hQ
  · exact hnext.errs hQ

/-- **What another transaction's event leaves.** -/
theorem others_step (h : MInv st prog d₀ c) {ev : Event O} (hu : u ≠ ev.tx) :
    Untouched st c (Machine.step st prog c ev) u := by
  have hrefl : Untouched st c c u := ⟨rfl, fun _ => Iff.rfl, fun _ _ => rfl, fun _ h => h⟩
  cases ev with
  | kill t => exact untouched_finish st c hu
  | start t o =>
    simp only [Machine.step]
    cases c.active t with
    | some a => exact hrefl
    | none => exact ⟨Function.update_of_ne hu _ _, fun _ => Iff.rfl, fun _ _ => rfl, fun _ h => h⟩
  | step t =>
    simp only [Machine.step]
    cases ha : c.active t with
    | none => exact hrefl
    | some a =>
      change u ≠ t at hu
      cases advance_cases st c t a with
      | waits hinner hwaits =>
        change Untouched st c (c.advance st t a) u
        rw [hwaits]
        exact hrefl
      | commits x hrest hcommit =>
        change Untouched st c (c.advance st t a) u
        rw [hcommit]
        exact untouched_commit h ha hu
      | rolls e hrest hfinish =>
        change Untouched st c (c.advance st t a) u
        rw [hfinish]
        exact untouched_finish st c hu
      | sends msg next hrest hdb howner hactive =>
        refine ⟨?_, fun k => by rw [howner], fun k _ => by rw [hdb], fun k hk => by rw [hdb]; exact hk⟩
        rw [hactive, Function.update_of_ne hu]
      | goes hinner a' hop hnext hdb howner hkeeps hactive =>
        refine ⟨?_, fun k => howner k u hu, fun k _ => by rw [hdb], fun k hk => by rw [hdb]; exact hk⟩
        rw [hactive, Function.update_of_ne hu]

/-! ## Phases -/

/-- A description `K` of an open transaction by its locks, the committed database and what it still has to do. -/
structure PhaseRule (st : Store S D) (prog : O → Prog S A) (K : (S.Key → Prop) → D → Active S A O → Prop) : Prop where
  start : ∀ d o, K (fun _ => False) d ⟨o, prog o, []⟩
  /-- it does not depend on rows that are not locked, except that rows do not vanish -/
  frame : ∀ held d d' a, Agree st held d d' → K held d a → K held d' a
  own : ∀ (c : Conf S D A O) t a a', c.active t = some a → K (fun k => c.owner k = some t) c.db a →
    (c.advance st t a).active t = some a' →
    K (fun k => (c.advance st t a).owner k = some t) (c.advance st t a).db a'

variable {K : (S.Key → Prop) → D → Active S A O → Prop}

def InPhase (K : (S.Key → Prop) → D → Active S A O → Prop) (c : Conf S D A O) : Prop :=
  ∀ t a, c.active t = some a → K (fun k => c.owner k = some t) c.db a

theorem phases_step (hrule : PhaseRule st prog K) (h : MInv st prog d₀ c) (hK : InPhase K c) (ev : Event O) :
    InPhase K (Machine.step st prog c ev) := by
  intro u b hb
  by_cases hu : u = ev.tx
  · cases ev with
    | kill t =>
      cases hu
      simp [Machine.step, Conf.finish, Event.tx] at hb
    | step t =>
      change u = t at hu
      subst hu
      simp only [Machine.step] at hb ⊢
      cases ha : c.active u with
      | none =>
        rw [ha] at hb
        exact hK u b hb
      | some a =>
        rw [ha] at hb
        exact hrule.own c u a b ha (hK u a ha) hb
    | start t o =>
      change u = t at hu
      subst hu
      simp only [Machine.step] at hb ⊢
      cases ha : c.active u with
      | some a =>
        rw [ha] at hb
        exact hK u b hb
      | none =>
        rw [ha] at hb
        simp only [Function.update_self] at hb
        cases hb
        have hnone : (fun k => c.owner k = some u) = fun _ => False := by
          funext k
          refine eq_false fun hk => h.locks k u hk ha
        change K (fun k => c.owner k = some u) c.db _
        rw [hnone]
        exact hrule.start c.db o
  · have hleft := others_step h hu
    rw [hleft.active] at hb
    have hheld : (fun k => (Machine.step st prog c ev).owner k = some u) = fun k => c.owner k = some u :=
      funext fun k => propext (hleft.owner k)
    rw [hheld]
    exact hrule.frame _ c.db _ b ⟨hleft.rows, hleft.more⟩ (hK u b hb)

/-! ## Properties of events -/

/-- `P` of every event of the run, in the configuration it comes in -/
def Machine.Always (st : Store S D) (prog : O → Prog S A) (P : Conf S D A O → Event O → Prop) :
    Conf S D A O → List (Event O) → Prop
  | _, [] => True
  | c, ev :: evs => P c ev ∧ Machine.Always st prog P (Machine.step st prog c ev) evs

theorem machine_always_append (st : Store S D) (prog : O → Prog S A) {P : Conf S D A O → Event O → Prop}
    {c : Conf S D A O} {evs evs' : List (Event O)} :
    Machine.Always st prog P c (evs ++ evs') ↔
      Machine.Always st prog P c evs ∧ Machine.Always st prog P (Machine.run st prog c evs) evs' := by
  induction evs generalizing c with
  | nil => exact (and_iff_right trivial).symm
  | cons ev evs ih => exact (and_congr_right fun _ => ih).trans and_assoc.symm

theorem machine_always_congr {I : Conf S D A O → Prop} {P Q : Conf S D A O → Event O → Prop}
    (hI : ∀ c ev, I c → I (Machine.step st prog c ev)) (hPQ : ∀ c ev, I c → (P c ev ↔ Q c ev)) {c : Conf S D A O}
    (hc : I c) (evs : List (Event O)) : Machine.Always st prog P c evs ↔ Machine.Always st prog Q c evs := by
  induction evs generalizing c with
  | nil => exact Iff.rfl
  | cons ev evs ih => exact and_congr (hPQ c ev hc) (ih (hI c ev hc))

end Statements

end GigMarketplace.Core
