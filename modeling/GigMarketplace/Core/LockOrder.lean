/-
Lock order: transactions that take their row locks in increasing rank never wait for one another in a circle.

The machine runs the programs of `RowLock.lean` with their explicit row locks alone: a `lock` statement on a key that
`tracked` selects acquires the row, waits for the transaction that holds it, or fails (NOWAIT); every other statement
runs on at once. So it has every interleaving of the lock acquisitions, also those that the locks of plain writes or of
keys left out would rule out.

`Climbs` is the discipline a program is held to, as a rule for its statements: a lock it may wait for ranks above all
the locks it holds, or is held already, whatever rows the database returns; what it may assume of these rows is a
property `P` of the database, which its writes have to keep.

Results:
- `climbs_bind` and one rule for each statement, tagged for simp;
- `LockInv`, `lockInv_run`: in every reachable configuration each open transaction still climbs from the locks it holds;
- `WaitsFor.rank_lt`, `no_wait_cycle`: no configuration that a run of climbing programs reaches has a circle of
  transactions each waiting for a lock that the next one holds.
-/
import GigMarketplace.Core.RowLock
import Mathlib.Data.Set.Insert
import Mathlib.Logic.Relation

namespace GigMarketplace.Core

variable {S : Schema} {D A B O R : Type}

/-! ## The machine -/

section Machine

variable [DecidableEq S.Key] (tracked : S.Key → Bool) (st : Store S D) (prog : O → Prog S A)

/-- the next statement of transaction `t`, with the locks on tracked keys alone -/
def Conf.advanceExplicit (c : Conf S D A O) (t : ℕ) (a : Active S A O) : Conf S D A O :=
  match a.rest with
  | .lock k busy pick miss next =>
    match st.get (replay st a.work c.db) k with
    | none => c.goOn t a (.fail miss)
    | some r =>
      if pick r then
        if tracked k then
          if c.Free t k then c.acquire t a k [] (next r)
          else match busy with
            | some e => c.goOn t a (.fail e)
            | none => c
        else c.goOn t a (next r)
      else c.goOn t a (.fail miss)
  | .update k f next => c.goOn t { a with work := a.work ++ [.update k f] } next
  | .insert k r dup next =>
    if (st.get (replay st a.work c.db) k).isSome then c.goOn t a (.fail dup)
    else c.goOn t { a with work := a.work ++ [.insert k r] } next
  | _ => c.advance st t a

def LockMachine.step (c : Conf S D A O) : Event O → Conf S D A O
  | .start t o =>
    match c.active t with
    | none => { c with active := Function.update c.active t (some ⟨o, prog o, []⟩) }
    | some _ => c
  | .step t =>
    match c.active t with
    | none => c
    | some a => c.advanceExplicit tracked st t a
  | .kill t => c.finish t

def LockMachine.run (c : Conf S D A O) (evs : List (Event O)) : Conf S D A O :=
  evs.foldl (LockMachine.step tracked st prog) c

/-- transaction `t` is about to lock the row `k`, and will queue for it when it is taken -/
def Wants (c : Conf S D A O) (t : ℕ) (k : S.Key) : Prop :=
  tracked k = true ∧ ∃ a pick miss next r, c.active t = some a ∧ a.rest = .lock k none pick miss next ∧
    st.get (replay st a.work c.db) k = some r ∧ pick r = true

/-- transaction `t` waits for a lock that `t'` holds -/
def WaitsFor (c : Conf S D A O) (t t' : ℕ) : Prop := ∃ k, Wants tracked st c t k ∧ c.owner k = some t' ∧ t' ≠ t

end Machine

/-! ## The discipline -/

section Climbs

variable [Preorder R] (tracked : S.Key → Bool) (rank : S.Key → R) (st : Store S D) (P : D → Prop)

/-- From the locks `held`, the program asks for locks in increasing rank and its writes keep `P`; when it is done, with
a result and the locks it then holds, `Q` is true. -/
def Climbs (held : Set S.Key) : Prog S A → (A → Set S.Key → Prop) → Prop
  | .done a, Q => Q a held
  | .fail _, _ => True
  | .require _ _ next, Q => Climbs held next Q
  | .lock k busy pick _ next, Q =>
    (tracked k = true → busy = none → k ∈ held ∨ ∀ k' ∈ held, rank k' < rank k) ∧
    ∀ d r, P d → st.get d k = some r → pick r = true → Climbs (if tracked k then insert k held else held) (next r) Q
  | .update k f next, Q => (∀ d, P d → P (st.update d k f)) ∧ Climbs held next Q
  | .insert k r _ next, Q => (∀ d, P d → P (st.insert d k r)) ∧ Climbs held next Q
  | .append l next, Q => (∀ d, P d → P (st.append d l)) ∧ Climbs held next Q
  | .send _ next, Q => Climbs held next Q

variable {tracked} {rank} {st} {P} {held : Set S.Key} {k : S.Key}

@[simp] theorem climbs_pure {a : A} {Q : A → Set S.Key → Prop} :
    Climbs tracked rank st P held (pure a : Prog S A) Q ↔ Q a held := Iff.rfl

@[simp] theorem climbs_raise {e : S.Err} {Q : A → Set S.Key → Prop} :
    Climbs tracked rank st P held (Prog.raise e : Prog S A) Q ↔ True := Iff.rfl

@[simp] theorem climbs_bind {p : Prog S A} {f : A → Prog S B} {Q : B → Set S.Key → Prop} :
    Climbs tracked rank st P held (p >>= f) Q ↔
      Climbs tracked rank st P held p fun a h => Climbs tracked rank st P h (f a) Q := by
  induction p generalizing held with
  | done a => exact Iff.rfl
  | fail e => exact Iff.rfl
  | require k miss next ih => exact ih
  | lock k busy pick miss next ih =>
    refine and_congr Iff.rfl (forall_congr' fun d => forall_congr' fun r => ?_)
    exact imp_congr_right fun _ => imp_congr_right fun _ => imp_congr_right fun _ => ih r
  | update k g next ih => exact and_congr Iff.rfl ih
  | insert k r dup next ih => exact and_congr Iff.rfl ih
  | append l next ih => exact and_congr Iff.rfl ih
  | send m next ih => exact ih

@[simp] theorem climbs_raiseIf {c : Prop} [Decidable c] {e : S.Err} {Q : Unit → Set S.Key → Prop} :
    Climbs tracked rank st P held (Prog.raiseIf c e) Q ↔ (¬ c → Q () held) := by
  unfold Prog.raiseIf
  split_ifs with h
  · simp [Climbs, h]
  · simp [Climbs, h]

@[simp] theorem climbs_present {miss : S.Err} {Q : Unit → Set S.Key → Prop} :
    Climbs tracked rank st P held (Prog.present k miss) Q ↔ Q () held := Iff.rfl

@[simp] theorem climbs_set {f : S.Row k → S.Row k} {Q : Unit → Set S.Key → Prop} :
    Climbs tracked rank st P held (Prog.set k f) Q ↔ (∀ d, P d → P (st.update d k f)) ∧ Q () held := Iff.rfl

@[simp] theorem climbs_create {r : S.Row k} {dup : S.Err} {Q : Unit → Set S.Key → Prop} :
    Climbs tracked rank st P held (Prog.create k r dup) Q ↔ (∀ d, P d → P (st.insert d k r)) ∧ Q () held := Iff.rfl

@[simp] theorem climbs_record {l : S.Log} {Q : Unit → Set S.Key → Prop} :
    Climbs tracked rank st P held (Prog.record l) Q ↔ (∀ d, P d → P (st.append d l)) ∧ Q () held := Iff.rfl

@[simp] theorem climbs_delay {m : S.Msg} {Q : Unit → Set S.Key → Prop} :
    Climbs tracked rank st P held (Prog.delay m) Q ↔ Q () held := Iff.rfl

@[simp] theorem climbs_runIf {c : Prop} [Decidable c] {p : Prog S A} {Q : Unit → Set S.Key → Prop} :
    Climbs tracked rank st P held (Prog.runIf c p) Q ↔
      (c → Climbs tracked rank st P held p fun _ h => Q () h) ∧ (¬ c → Q () held) := by
  unfold Prog.runIf
  split_ifs with h
  · simp only [h, forall_const, not_true_eq_false, false_imp_iff, and_true]
    exact climbs_bind
  · simp only [h, false_imp_iff, not_false_eq_true, forall_const, true_and]
    exact Iff.rfl

/-- a lock above those held: afterwards it is held, if it counts, and none ranks higher -/
theorem climbs_selectForUpdate {busy : Option S.Err} {pick : S.Row k → Bool} {miss : S.Err}
    {Q : S.Row k → Set S.Key → Prop} (hrank : ∀ k' ∈ held, rank k' < rank k)
    (hQ : ∀ d r h, P d → st.get d k = some r → pick r = true → (tracked k = true → k ∈ h) →
      (∀ k' ∈ h, rank k' ≤ rank k) → Q r h) :
    Climbs tracked rank st P held (Prog.selectForUpdate k busy pick miss) Q := by
  refine ⟨fun _ _ => Or.inr hrank, fun d r hd hk hpick => ?_⟩
  refine hQ d r _ hd hk hpick (fun ht => ?_) (fun k' hk' => ?_)
  · rw [if_pos ht]
    exact Set.mem_insert _ _
  · split_ifs at hk' with ht
    · rcases hk' with rfl | hk'
      · exact le_rfl
      · exact (hrank k' hk').le
    · exact (hrank k' hk').le

/-- a row that is locked already, if it counts -/
theorem climbs_selectForUpdate_again {busy : Option S.Err} {pick : S.Row k → Bool} {miss : S.Err}
    {Q : S.Row k → Set S.Key → Prop} (hheld : tracked k = true → k ∈ held)
    (hQ : ∀ d r, P d → st.get d k = some r → pick r = true → Q r held) :
    Climbs tracked rank st P held (Prog.selectForUpdate k busy pick miss) Q := by
  refine ⟨fun ht _ => Or.inl (hheld ht), fun d r hd hk hpick => ?_⟩
  split_ifs with ht
  · rw [Set.insert_eq_of_mem (hheld ht)]
    exact hQ d r hd hk hpick
  · exact hQ d r hd hk hpick

/-- run alone, a climbing program keeps `P` -/
theorem Climbs.runs {p : Prog S A} {Q : A → Set S.Key → Prop} (h : Climbs tracked rank st P held p Q) {d d' : D} {a : A}
    (hd : P d) (hr : Runs st p d a d') : P d' := by
  unfold Runs at hr
  induction p generalizing held d with
  | done b =>
    cases hr
    exact hd
  | fail e => cases hr
  | require k miss next ih =>
    simp only [exec] at hr
    split_ifs at hr
    exact ih h hd hr
  | lock k busy pick miss next ih =>
    simp only [exec] at hr
    cases hk : st.get d k with
    | none => rw [hk] at hr; cases hr
    | some r =>
      rw [hk] at hr
      simp only at hr
      split_ifs at hr with hpick
      exact ih r (h.2 d r hd hk hpick) hd hr
  | update k g next ih => exact ih h.2 (h.1 d hd) hr
  | insert k r dup next ih =>
    simp only [exec] at hr
    split_ifs at hr
    exact ih h.2 (h.1 d hd) hr
  | append l next ih => exact ih h.2 (h.1 d hd) hr
  | send m next ih => exact ih h hd hr

end Climbs

/-! ## The invariant -/

section Inv

variable [Preorder R]

/-- the locks of transaction `t` -/
def Conf.held (c : Conf S D A O) (t : ℕ) : Set S.Key := { k | c.owner k = some t }

/-- what holds of the open transaction `a` with number `t` -/
structure Climbing (tracked : S.Key → Bool) (rank : S.Key → R) (st : Store S D) (P : D → Prop) (c : Conf S D A O)
    (t : ℕ) (a : Active S A O) : Prop where
  /-- its writes keep `P` -/
  work : ∀ d, P d → P (replay st a.work d)
  rest : Climbs tracked rank st P (c.held t) a.rest fun _ _ => True

structure LockInv (tracked : S.Key → Bool) (rank : S.Key → R) (st : Store S D) (P : D → Prop) (c : Conf S D A O) :
    Prop where
  db : P c.db
  owned : ∀ k t, c.owner k = some t → (c.active t).isSome
  climbing : ∀ t a, c.active t = some a → Climbing tracked rank st P c t a

variable {tracked : S.Key → Bool} {rank : S.Key → R} {st : Store S D} {P : D → Prop} {c c' : Conf S D A O} {t : ℕ}
  {a : Active S A O}

theorem lockInv_init {d : D} (h : P d) : LockInv tracked rank st P (Conf.init S A O d) where
  db := h
  owned := fun k t hk => by simp [Conf.init] at hk
  climbing := fun t a ha => by simp [Conf.init] at ha

/-- an event touches one transaction: it has ended, or is again climbing -/
theorem LockInv.replace (h : LockInv tracked rank st P c) (hdb : P c'.db)
    (howner : ∀ k t', t' ≠ t → (c'.owner k = some t' ↔ c.owner k = some t'))
    (hactive : ∀ t', t' ≠ t → c'.active t' = c.active t')
    (hself : (c'.active t = none ∧ ∀ k, c'.owner k ≠ some t) ∨
      ∃ a, c'.active t = some a ∧ Climbing tracked rank st P c' t a) : LockInv tracked rank st P c' where
  db := hdb
  owned := fun k t' hk => by
    by_cases ht : t' = t
    · subst ht
      rcases hself with ⟨-, hno⟩ | ⟨a, ha, -⟩
      · exact absurd hk (hno k)
      · rw [ha]; rfl
    · rw [hactive t' ht]
      exact h.owned k t' ((howner k t' ht).1 hk)
  climbing := fun t' a ha => by
    by_cases ht : t' = t
    · subst ht
      rcases hself with ⟨hnone, -⟩ | ⟨a', ha', hclimb⟩
      · rw [hnone] at ha; cases ha
      · rw [ha'] at ha; cases ha; exact hclimb
    · rw [hactive t' ht] at ha
      have hheld : c'.held t' = c.held t' := Set.ext fun k => howner k t' ht
      obtain ⟨hwork, hrest⟩ := h.climbing t' a ha
      exact ⟨hwork, by rw [hheld]; exact hrest⟩

/-- the transaction goes on without a new lock -/
theorem LockInv.goOn (h : LockInv tracked rank st P c) {p : Prog S A} (hwork : ∀ d, P d → P (replay st a.work d))
    (hrest : Climbs tracked rank st P (c.held t) p fun _ _ => True) : LockInv tracked rank st P (c.goOn t a p) := by
  refine h.replace (t := t) h.db (fun _ _ _ => Iff.rfl) (fun t' ht => Function.update_of_ne ht _ _) (Or.inr ?_)
  exact ⟨{ a with rest := p }, Function.update_self .., hwork, hrest⟩

theorem LockInv.finish (h : LockInv tracked rank st P c) {d : D} (hd : P d) (os : List O) :
    LockInv tracked rank st P { c.finish t with db := d, history := os } := by
  refine h.replace (t := t) hd (fun k t' ht => ?_) (fun t' ht => Function.update_of_ne ht _ _) (Or.inl ⟨?_, ?_⟩)
  · simp only [Conf.finish]
    split_ifs with hk
    · simp [hk, Ne.symm ht]
    · rfl
  · exact Function.update_self ..
  · intro k
    simp only [Conf.finish]
    split_ifs with hk
    · simp
    · exact hk

variable [DecidableEq S.Key]

theorem LockInv.acquire (h : LockInv tracked rank st P c) {k : S.Key} {p : Prog S A} (hfree : c.Free t k)
    (hwork : ∀ d, P d → P (replay st a.work d))
    (hrest : Climbs tracked rank st P (insert k (c.held t)) p fun _ _ => True) :
    LockInv tracked rank st P (c.acquire t a k [] p) := by
  refine h.replace (t := t) h.db (fun k' t' ht => ?_) (fun t' ht => Function.update_of_ne ht _ _) (Or.inr ?_)
  · simp only [Conf.acquire]
    by_cases hk : k' = k
    · subst hk
      rw [Function.update_self]
      exact ⟨fun he => absurd (Option.some.inj he).symm ht, fun he => absurd (hfree t' he) ht⟩
    · rw [Function.update_of_ne hk]
  · have hheld : (c.acquire t a k [] p).held t = insert k (c.held t) := by
      refine Set.ext fun k' => ?_
      by_cases hk : k' = k
      · subst hk
        exact iff_of_true (Function.update_self ..) (Set.mem_insert _ _)
      · have hsame : (c.acquire t a k [] p).owner k' = c.owner k' := Function.update_of_ne hk _ _
        refine ⟨fun he => Or.inr (hsame.symm.trans he), fun he => ?_⟩
        exact hsame.trans (he.resolve_left hk)
    refine ⟨_, Function.update_self .., ?_, ?_⟩
    · simpa using hwork
    · rw [hheld]; exact hrest

/-- **The next statement of a climbing transaction.** -/
theorem lockInv_advance (h : LockInv tracked rank st P c) (ha : c.active t = some a) :
    LockInv tracked rank st P (c.advanceExplicit tracked st t a) := by
  obtain ⟨hwork, hrest⟩ := h.climbing t a ha
  have hview : P (replay st a.work c.db) := hwork c.db h.db
  -- one more write that keeps `P`
  have hmore : ∀ e : Eff S, (∀ d, P d → P (e.apply st d)) → ∀ d, P d → P (replay st (a.work ++ [e]) d) := by
    intro e he d hd
    rw [replay_append]
    exact he _ (hwork d hd)
  have hgiveUp : ∀ e, LockInv tracked rank st P (c.goOn t a (.fail e)) := fun e => h.goOn hwork trivial
  unfold Conf.advanceExplicit
  cases hr : a.rest with
  | done x =>
    simp only [Conf.advance, hr]
    exact h.finish hview _
  | fail e =>
    simp only [Conf.advance, hr]
    exact h.finish h.db _
  | require k miss next =>
    rw [hr] at hrest
    simp only [Conf.advance, hr]
    split_ifs
    · exact h.goOn hwork hrest
    · exact hgiveUp miss
  | lock k busy pick miss next =>
    rw [hr] at hrest
    obtain ⟨-, hnext⟩ := hrest
    simp only
    cases hk : st.get (replay st a.work c.db) k with
    | none => exact hgiveUp miss
    | some r =>
      simp only
      split_ifs with hpick htracked hfree
      · have hclimb := hnext _ r hview hk hpick
        rw [if_pos htracked] at hclimb
        exact h.acquire hfree hwork hclimb
      · cases busy with
        | none => exact h
        | some e => exact hgiveUp e
      · have hclimb := hnext _ r hview hk hpick
        rw [if_neg htracked] at hclimb
        exact h.goOn hwork hclimb
      · exact hgiveUp miss
  | update k f next =>
    rw [hr] at hrest
    exact h.goOn (hmore (.update k f) hrest.1) hrest.2
  | insert k r dup next =>
    rw [hr] at hrest
    simp only
    split_ifs
    · exact hgiveUp dup
    · exact h.goOn (hmore (.insert k r) hrest.1) hrest.2
  | append l next =>
    rw [hr] at hrest
    simp only [Conf.advance, hr]
    exact h.goOn (hmore (.append l) hrest.1) hrest.2
  | send m next =>
    rw [hr] at hrest
    simp only [Conf.advance, hr]
    have hon : LockInv tracked rank st P (c.goOn t a next) := h.goOn hwork hrest
    exact ⟨hon.db, hon.owned, fun t' a' ha' => ⟨(hon.climbing t' a' ha').work, (hon.climbing t' a' ha').rest⟩⟩

theorem lockInv_step {prog : O → Prog S A} {ev : Event O}
    (hprog : ∀ t o, ev = .start t o → Climbs tracked rank st P ∅ (prog o) fun _ _ => True)
    (h : LockInv tracked rank st P c) : LockInv tracked rank st P (LockMachine.step tracked st prog c ev) := by
  cases ev with
  | start t o =>
    cases ha : c.active t with
    | some a =>
      simp only [LockMachine.step, ha]
      exact h
    | none =>
      simp only [LockMachine.step, ha]
      -- a number that is not in use holds no lock
      have hnone : c.held t = ∅ := by
        refine Set.eq_empty_iff_forall_notMem.2 fun k hk => ?_
        have hopen := h.owned k t hk
        rw [ha] at hopen
        cases hopen
      refine h.replace (t := t) h.db (fun _ _ _ => Iff.rfl) (fun t' ht => Function.update_of_ne ht _ _) (Or.inr ?_)
      refine ⟨_, Function.update_self .., fun d hd => hd, ?_⟩
      have hclimb := hprog t o rfl
      rw [← hnone] at hclimb
      exact hclimb
  | step t =>
    cases ha : c.active t with
    | none =>
      simp only [LockMachine.step, ha]
      exact h
    | some a =>
      simp only [LockMachine.step, ha]
      exact lockInv_advance h ha
  | kill t => exact h.finish h.db _

theorem lockInv_run {prog : O → Prog S A} {evs : List (Event O)}
    (hprog : ∀ t o, .start t o ∈ evs → Climbs tracked rank st P ∅ (prog o) fun _ _ => True)
    (h : LockInv tracked rank st P c) : LockInv tracked rank st P (LockMachine.run tracked st prog c evs) := by
  induction evs generalizing c with
  | nil => exact h
  | cons ev evs ih =>
    refine ih (fun t o hm => hprog t o (List.mem_cons_of_mem _ hm)) (lockInv_step (fun t o he => ?_) h)
    exact hprog t o (he ▸ List.mem_cons_self)

/-! ## No circle -/

omit [DecidableEq S.Key] [Preorder R] in
/-- a transaction queues for one row at a time -/
theorem Wants.unique {k k' : S.Key} (h : Wants tracked st c t k) (h' : Wants tracked st c t k') : k' = k := by
  obtain ⟨-, a, pick, miss, next, r, ha, hrest, -⟩ := h
  obtain ⟨-, a', pick', miss', next', r', ha', hrest', -⟩ := h'
  rw [ha] at ha'
  cases ha'
  rw [hrest] at hrest'
  cases hrest'
  rfl

omit [DecidableEq S.Key] in
/-- what a transaction waits for ranks above all it holds -/
theorem Wants.rank_lt (h : LockInv tracked rank st P c) {k k' : S.Key} (hw : Wants tracked st c t k)
    (hk : c.owner k ≠ some t) (hk' : c.owner k' = some t) : rank k' < rank k := by
  obtain ⟨htracked, a, pick, miss, next, r, ha, hrest, -⟩ := hw
  have hclimb := (h.climbing t a ha).rest
  rw [hrest] at hclimb
  rcases hclimb.1 htracked rfl with hheld | hall
  · exact absurd hheld hk
  · exact hall k' hk'

omit [DecidableEq S.Key] in
/-- along a chain of waiting transactions the rows waited for rise in rank -/
theorem WaitsFor.rank_lt (h : LockInv tracked rank st P c) {t t' : ℕ}
    (hchain : Relation.TransGen (WaitsFor tracked st c) t t') {k' : S.Key} (hw : Wants tracked st c t' k')
    (hk' : c.owner k' ≠ some t') : ∃ k, Wants tracked st c t k ∧ rank k < rank k' := by
  induction hchain generalizing k' with
  | single hwait =>
    obtain ⟨k, hk, howner, -⟩ := hwait
    exact ⟨k, hk, hw.rank_lt h hk' howner⟩
  | @tail u v _ hwait ih =>
    obtain ⟨ku, hku, howner, hne⟩ := hwait
    have hnotown : c.owner ku ≠ some u := by
      rw [howner]
      exact fun he => hne (Option.some.inj he)
    obtain ⟨k, hk, hlt⟩ := ih hku hnotown
    exact ⟨k, hk, hlt.trans (hw.rank_lt h hk' howner)⟩

/-- **No circle of waiting transactions.** -/
theorem no_wait_cycle {prog : O → Prog S A} {d : D} {evs : List (Event O)} (hd : P d)
    (hprog : ∀ t o, .start t o ∈ evs → Climbs tracked rank st P ∅ (prog o) fun _ _ => True) :
    ¬ ∃ t, Relation.TransGen (WaitsFor tracked st (LockMachine.run tracked st prog (Conf.init S A O d) evs)) t t := by
  intro hcycle
  obtain ⟨t, ht⟩ := hcycle
  have hinv : LockInv tracked rank st P (LockMachine.run tracked st prog (Conf.init S A O d) evs) :=
    lockInv_run hprog (lockInv_init hd)
  -- the first edge of the circle: what `t` itself waits for
  obtain ⟨u, ⟨k, hk, howner, hne⟩, -⟩ := Relation.TransGen.head'_iff.1 ht
  have hnotown : (LockMachine.run tracked st prog (Conf.init S A O d) evs).owner k ≠ some t := by
    rw [howner]
    exact fun he => hne (Option.some.inj he)
  obtain ⟨k', hk', hlt⟩ := WaitsFor.rank_lt hinv ht hk hnotown
  rw [hk.unique hk'] at hlt
  exact lt_irrefl _ hlt

end Inv

end GigMarketplace.Core
