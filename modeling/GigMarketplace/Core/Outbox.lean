/-
Messages sent from inside a transaction (`Core/RowLock.lean`), and workers that handle them.

A message leaves when its statement runs, whatever becomes of the transaction. `Mail` runs the transactions and tags
every message with its fate: its sender is still open, has committed, or was rolled back. A worker may handle any
message that has been sent, at any time and more than once; what it reads is the committed database.

`Announces`: a program whose only message is its last statement and follows from what it returns. For such programs and
a reading `Shows` of the messages that a commit makes true, that was not true before, and that stays true:
- `mail_outbox`: the tags are exact, the machine underneath is the one of `Core/RowLock.lean`;
- `mailInv_step`: the sender of a pending message has only its commit left, the message of a committed one is true;
- `truthful_iff_timely`: in a run, every message handled is true when it is handled and none was sent by a transaction
  that was rolled back, exactly if no transaction is rolled back after it has sent and every message is handled after
  its sender's commit.
-/
import GigMarketplace.Core.Statement

namespace GigMarketplace.Core

variable {S : Schema} {D A O : Type}

/-! ## Programs that announce their result -/

/-- the program sends nothing but `mk a`, right before it returns `a` -/
def Prog.Announces (mk : A → Option S.Msg) : Prog S A → Prop
  | .done a => mk a = none
  | .fail _ => True
  | .require _ _ next => next.Announces mk
  | .lock _ _ _ _ next => ∀ r, (next r).Announces mk
  | .update _ _ next => next.Announces mk
  | .insert _ _ _ next => next.Announces mk
  | .append _ next => next.Announces mk
  | .send m next => ∃ a, next = .done a ∧ mk a = some m

/-- the program sends nothing -/
def Prog.Silent (p : Prog S A) : Prop := p.Announces fun _ => none

section Programs

variable {B : Type} {mk : B → Option S.Msg} {p : Prog S A} {f : A → Prog S B} {k : S.Key}

theorem announces_bind (hp : p.Silent) (hf : ∀ a, (f a).Announces mk) : (p >>= f).Announces mk := by
  induction p with
  | done a => exact hf a
  | fail e => exact hp
  | require k miss next ih => exact ih hp
  | lock k busy pick miss next ih => exact fun r => ih r (hp r)
  | update k g next ih => exact ih hp
  | insert k r dup next ih => exact ih hp
  | append l next ih => exact ih hp
  | send m next ih =>
    obtain ⟨a, -, hnone⟩ := hp
    cases hnone

theorem silent_bind (hp : p.Silent) (hf : ∀ a, (f a).Silent) : (p >>= f).Silent := announces_bind hp hf

theorem announces_delay {m : S.Msg} {b : B} (h : mk b = some m) :
    (Prog.delay m >>= fun _ => pure b : Prog S B).Announces mk := ⟨b, rfl, h⟩

theorem Prog.Next.announces {p' : Prog S A} {mk' : A → Option S.Msg} (h : p.Next p') (hp : p.Announces mk') :
    p'.Announces mk' := by
  cases h with
  | requireFail => trivial
  | lock k busy pick miss next r => exact hp r
  | lockMiss => trivial
  | lockBusy => trivial
  | insertFail => trivial
  | _ => exact hp

theorem silent_pure (a : A) : (pure a : Prog S A).Silent := rfl

theorem silent_raise (e : S.Err) : (Prog.raise e : Prog S A).Silent := trivial

theorem silent_raiseIf (c : Prop) [Decidable c] (e : S.Err) : (Prog.raiseIf c e : Prog S Unit).Silent := by
  unfold Prog.raiseIf
  split_ifs
  · exact silent_raise e
  · exact silent_pure ()

theorem silent_present (k : S.Key) (miss : S.Err) : (Prog.present k miss).Silent := rfl

theorem silent_selectForUpdate (busy : Option S.Err) (pick : S.Row k → Bool) (miss : S.Err) :
    (Prog.selectForUpdate k busy pick miss).Silent := fun _ => rfl

theorem silent_set (g : S.Row k → S.Row k) : (Prog.set k g).Silent := rfl

theorem silent_create (r : S.Row k) (dup : S.Err) : (Prog.create k r dup).Silent := rfl

theorem silent_record (l : S.Log) : (Prog.record l).Silent := rfl

theorem silent_runIf {c : Prop} [Decidable c] (hp : p.Silent) : (Prog.runIf c p).Silent := by
  unfold Prog.runIf
  split_ifs
  · exact silent_bind hp fun _ => silent_pure ()
  · exact silent_pure ()

end Programs

/-! ## The machine with its messages tagged -/

inductive Fate where
  /-- sent by the transaction `t`, which is still open -/
  | pending (t : ℕ)
  | committed
  | lost
deriving DecidableEq, Repr

structure Letter (S : Schema) where
  msg : S.Msg
  fate : Fate

/-- the transaction `t` has ended -/
def Letter.settle (t : ℕ) (end_ : Fate) (l : Letter S) : Letter S :=
  if l.fate = .pending t then { l with fate := end_ } else l

theorem settle_msg (t : ℕ) (f : Fate) (ls : List (Letter S)) :
    (ls.map (Letter.settle t f)).map Letter.msg = ls.map Letter.msg := by
  rw [List.map_map]
  refine List.map_congr_left fun l _ => ?_
  simp only [Function.comp, Letter.settle]
  split_ifs <;> rfl

structure Mail (S : Schema) (D A O : Type) where
  conf : Conf S D A O
  letters : List (Letter S)

inductive MailEvent (O : Type) where
  | tx (ev : Event O)
  /-- a worker handles the message at a position -/
  | deliver (i : ℕ)

namespace Mail

def init (d : D) : Mail S D A O := ⟨Conf.init S A O d, []⟩

/-- the tags after an event -/
def lettersAfter (m : Mail S D A O) : Event O → List (Letter S)
  | .start _ _ => m.letters
  | .step t =>
    match m.conf.active t with
    | none => m.letters
    | some a =>
      match a.rest with
      | .done _ => m.letters.map (Letter.settle t .committed)
      | .fail _ => m.letters.map (Letter.settle t .lost)
      | .send msg _ => m.letters ++ [⟨msg, .pending t⟩]
      | _ => m.letters
  | .kill t => m.letters.map (Letter.settle t .lost)

variable [DecidableEq S.Key] (st : Store S D) (prog : O → Prog S A)

def step (m : Mail S D A O) : MailEvent O → Mail S D A O
  | .tx ev => ⟨Machine.step st prog m.conf ev, m.lettersAfter ev⟩
  | .deliver _ => m

def run (m : Mail S D A O) (evs : List (MailEvent O)) : Mail S D A O := evs.foldl (Mail.step st prog) m

/-- `P` of every event of the run, in the state it comes in -/
def Always (P : Mail S D A O → MailEvent O → Prop) : Mail S D A O → List (MailEvent O) → Prop
  | _, [] => True
  | m, ev :: evs => P m ev ∧ Always P (m.step st prog ev) evs

end Mail

theorem always_append [DecidableEq S.Key] (st : Store S D) (prog : O → Prog S A)
    {P : Mail S D A O → MailEvent O → Prop} {m : Mail S D A O} {evs evs' : List (MailEvent O)} :
    Mail.Always st prog P m (evs ++ evs') ↔
      Mail.Always st prog P m evs ∧ Mail.Always st prog P (m.run st prog evs) evs' := by
  induction evs generalizing m with
  | nil => exact (and_iff_right trivial).symm
  | cons ev evs ih => exact (and_congr_right fun _ => ih).trans and_assoc.symm

/-- what the transactions do, without the deliveries -/
def MailEvent.tx? : MailEvent O → Option (Event O)
  | .tx ev => some ev
  | .deliver _ => none

section Projection

variable [DecidableEq S.Key] {st : Store S D} {prog : O → Prog S A}

theorem advance_outbox (c : Conf S D A O) (t : ℕ) (a : Active S A O) :
    (c.advance st t a).outbox = match a.rest with
      | .send msg _ => c.outbox ++ [msg]
      | _ => c.outbox := by
  unfold Conf.advance
  cases a.rest with
  | lock k busy pick miss next =>
    dsimp only
    split
    · rfl
    · split_ifs
      · rfl
      · split <;> rfl
      · rfl
  | update k f next => dsimp only; split_ifs <;> rfl
  | insert k r dup next => dsimp only; split_ifs <;> rfl
  | _ => rfl

/-- **The tags are exact.** -/
theorem mail_outbox (d : D) (evs : List (MailEvent O)) :
    ((Mail.init d).run st prog evs).conf = Machine.run st prog (Conf.init S A O d) (evs.filterMap MailEvent.tx?) ∧
      ((Mail.init d).run st prog evs).letters.map Letter.msg = ((Mail.init d).run st prog evs).conf.outbox := by
  have hrun : ∀ m : Mail S D A O, m.letters.map Letter.msg = m.conf.outbox →
      (m.run st prog evs).conf = Machine.run st prog m.conf (evs.filterMap MailEvent.tx?) ∧
        (m.run st prog evs).letters.map Letter.msg = (m.run st prog evs).conf.outbox := by
    induction evs with
    | nil => exact fun m hm => ⟨rfl, hm⟩
    | cons ev evs ih =>
      intro m hm
      cases ev with
      | deliver i => exact ih m hm
      | tx ev =>
        refine ih (m.step st prog (.tx ev)) ?_
        cases ev with
        | start t o =>
          simp only [Mail.step, Mail.lettersAfter, Machine.step]
          split <;> exact hm
        | kill t => exact (settle_msg t _ _).trans hm
        | step t =>
          simp only [Mail.step, Mail.lettersAfter, Machine.step]
          cases m.conf.active t with
          | none => exact hm
          | some a =>
            dsimp only
            rw [advance_outbox]
            cases a.rest with
            | done x => exact (settle_msg t _ _).trans hm
            | fail e => exact (settle_msg t _ _).trans hm
            | send msg next =>
              rw [List.map_append, hm]
              rfl
            | _ => exact hm
  exact hrun (Mail.init d) rfl

end Projection

/-! ## The invariant -/

/-- What messages say: a commit makes its message true, it was not true before, and stays true. -/
structure Announcing (st : Store S D) (prog : O → Prog S A) (mk : O → A → Option S.Msg) (Shows : S.Msg → D → Prop) :
    Prop where
  last : ∀ o, (prog o).Announces (mk o)
  fresh : ∀ o d a d' msg, Runs st (prog o) d a d' → mk o a = some msg → ¬ Shows msg d
  shown : ∀ o d a d' msg, Runs st (prog o) d a d' → mk o a = some msg → Shows msg d'
  stays : ∀ o d a d' msg, Runs st (prog o) d a d' → Shows msg d → Shows msg d'

structure MailInv (st : Store S D) (prog : O → Prog S A) (mk : O → A → Option S.Msg) (Shows : S.Msg → D → Prop)
    (d₀ : D) (m : Mail S D A O) : Prop where
  machine : MInv st prog d₀ m.conf
  active : ∀ t a, m.conf.active t = some a → a.rest.Announces (mk a.op) ∨ ∃ x, a.rest = .done x
  pending : ∀ l ∈ m.letters, ∀ t, l.fate = .pending t →
    ∃ a x, m.conf.active t = some a ∧ a.rest = .done x ∧ mk a.op x = some l.msg
  committed : ∀ l ∈ m.letters, l.fate = .committed → Shows l.msg m.conf.db

section Inv

variable {st : Store S D} {prog : O → Prog S A} {mk : O → A → Option S.Msg} {Shows : S.Msg → D → Prop} {d₀ : D}
  {m : Mail S D A O} {c : Conf S D A O} {t : ℕ} {a : Active S A O}

/-- the program of a transaction that has only its commit left -/
theorem MInv.runs (h : MInv st prog d₀ c) (ha : c.active t = some a) {x : A} (hrest : a.rest = .done x) :
    Runs st (prog a.op) c.db x (replay st a.work c.db) := by
  have hsim := (h.tx t a ha).sim (by simp [hrest]) c.db (agree_self _ _)
  rw [hrest] at hsim
  exact hsim

/-- what is pending is not true yet -/
theorem MailInv.not_shows (hann : Announcing st prog mk Shows) (h : MailInv st prog mk Shows d₀ m) {l : Letter S}
    (hl : l ∈ m.letters) (hfate : l.fate = .pending t) : ¬ Shows l.msg m.conf.db := by
  obtain ⟨a, x, ha, hrest, hmk⟩ := h.pending l hl t hfate
  exact hann.fresh a.op _ x _ l.msg (h.machine.runs ha hrest) hmk

theorem lettersAfter_inner (ha : m.conf.active t = some a) (hinner : a.rest.Inner) :
    m.lettersAfter (.step t) = m.letters := by
  simp only [Mail.lettersAfter, ha]
  cases hrest : a.rest with
  | done x => rw [hrest] at hinner; exact hinner.elim
  | fail e => rw [hrest] at hinner; exact hinner.elim
  | send msg next => rw [hrest] at hinner; exact hinner.elim
  | _ => rfl

theorem Prog.Announces.not_done {p : Prog S A} {mk' : A → Option S.Msg} (hinner : p.Inner)
    (h : p.Announces mk' ∨ ∃ x, p = .done x) : p.Announces mk' := by
  rcases h with h | ⟨x, rfl⟩
  · exact h
  · exact hinner.elim

theorem mem_settle {f : Fate} {ls : List (Letter S)} {l : Letter S} (h : l ∈ ls.map (Letter.settle t f)) :
    (l ∈ ls ∧ l.fate ≠ .pending t) ∨ ∃ l' ∈ ls, l'.fate = .pending t ∧ l = ⟨l'.msg, f⟩ := by
  obtain ⟨l', hl', rfl⟩ := List.mem_map.1 h
  by_cases hfate : l'.fate = .pending t
  · refine Or.inr ⟨l', hl', hfate, ?_⟩
    rw [Letter.settle, if_pos hfate]
  · rw [Letter.settle, if_neg hfate]
    exact Or.inl ⟨hl', hfate⟩

theorem settle_not_lost {t : ℕ} {f : Fate} {ls : List (Letter S)} (hls : ∀ l ∈ ls, l.fate ≠ .lost) :
    (∀ l ∈ ls.map (Letter.settle t f), l.fate ≠ .lost) ↔ f ≠ .lost ∨ ∀ l ∈ ls, l.fate ≠ .pending t := by
  constructor
  · intro h
    by_contra hno
    rw [not_or, not_not, not_forall] at hno
    obtain ⟨rfl, l, hno⟩ := hno
    rw [Classical.not_imp, not_not] at hno
    obtain ⟨hl, hfate⟩ := hno
    apply h (Letter.settle t .lost l) (List.mem_map_of_mem hl)
    rw [Letter.settle, if_pos hfate]
  · intro h l hl hlost
    rcases mem_settle hl with ⟨hold, -⟩ | ⟨l', hold, hpending, rfl⟩
    · exact hls l hold hlost
    · rcases h with hf | hno
      · exact hf hlost
      · exact hno l' hold hpending

/-- the transaction `t` goes on to `a'` -/
theorem MailInv.goes (h : MailInv st prog mk Shows d₀ m) {c' : Conf S D A O} (hmachine : MInv st prog d₀ c')
    (hno : ∀ l ∈ m.letters, l.fate ≠ .pending t) {a' : Active S A O}
    (hrest : a'.rest.Announces (mk a'.op) ∨ ∃ x, a'.rest = .done x) (hdb : c'.db = m.conf.db)
    (hactive : c'.active = Function.update m.conf.active t (some a')) :
    MailInv st prog mk Shows d₀ ⟨c', m.letters⟩ where
  machine := hmachine
  active u b hb := by
    change c'.active u = some b at hb
    rw [hactive] at hb
    by_cases hu : u = t
    · subst hu
      rw [Function.update_self] at hb
      cases hb
      exact hrest
    · rw [Function.update_of_ne hu] at hb
      exact h.active u b hb
  pending l hl u hfate := by
    change ∃ a x, c'.active u = some a ∧ _
    have hu : u ≠ t := by
      rintro rfl
      exact hno l hl hfate
    rw [hactive, Function.update_of_ne hu]
    exact h.pending l hl u hfate
  committed l hl hfate := by
    change Shows l.msg c'.db
    rw [hdb]
    exact h.committed l hl hfate

/-- the transaction `t` ends without a commit -/
theorem MailInv.rollback (h : MailInv st prog mk Shows d₀ m) (t : ℕ) :
    MailInv st prog mk Shows d₀ ⟨m.conf.finish t, m.letters.map (Letter.settle t .lost)⟩ where
  machine := minv_finish h.machine t
  active u b hb := by
    by_cases hu : u = t
    · subst hu
      simp [Conf.finish] at hb
    · simp only [Conf.finish, Function.update_of_ne hu] at hb
      exact h.active u b hb
  pending l hl u hfate := by
    rcases mem_settle hl with ⟨hold, hne⟩ | ⟨l', -, -, rfl⟩
    · have hu : u ≠ t := by
        rintro rfl
        exact hne hfate
      simp only [Conf.finish, Function.update_of_ne hu]
      exact h.pending l hold u hfate
    · cases hfate
  committed l hl hfate := by
    rcases mem_settle hl with ⟨hold, -⟩ | ⟨l', -, -, rfl⟩
    · exact h.committed l hold hfate
    · cases hfate

/-- the transaction `t` commits: its message is true now, and what was true stays so -/
theorem MailInv.commit (hann : Announcing st prog mk Shows) (h : MailInv st prog mk Shows d₀ m)
    (ha : m.conf.active t = some a) {x : A} (hrest : a.rest = .done x) :
    MailInv st prog mk Shows d₀ ⟨m.conf.commit st t a, m.letters.map (Letter.settle t .committed)⟩ where
  machine := minv_commit h.machine ha hrest
  active := (h.rollback t).active
  pending l hl u hfate := by
    rcases mem_settle hl with ⟨hold, hne⟩ | ⟨l', -, -, rfl⟩
    · have hu : u ≠ t := by
        rintro rfl
        exact hne hfate
      simp only [Conf.commit, Conf.finish, Function.update_of_ne hu]
      exact h.pending l hold u hfate
    · cases hfate
  committed l hl hfate := by
    have hruns := h.machine.runs ha hrest
    rcases mem_settle hl with ⟨hold, -⟩ | ⟨l', hold, hpending, rfl⟩
    · exact hann.stays a.op _ x _ l.msg hruns (h.committed l hold hfate)
    · obtain ⟨b, y, hb, hy, hmk⟩ := h.pending l' hold t hpending
      rw [ha] at hb
      cases hb
      rw [hrest] at hy
      cases hy
      exact hann.shown a.op _ x _ l'.msg hruns hmk

/-- the transaction `t` has sent its message and has only its commit left -/
theorem MailInv.sent {ls : List (Letter S)} (h : MailInv st prog mk Shows d₀ ⟨c, ls⟩) (ha : c.active t = some a) {x : A}
    (hrest : a.rest = .done x) {msg : S.Msg} (hmk : mk a.op x = some msg) :
    MailInv st prog mk Shows d₀ ⟨c, ls ++ [⟨msg, .pending t⟩]⟩ where
  machine := h.machine
  active := h.active
  pending l hl u hfate := by
    rcases List.mem_append.1 hl with hold | hnew
    · exact h.pending l hold u hfate
    · cases List.mem_singleton.1 hnew
      cases hfate
      exact ⟨a, x, ha, hrest, hmk⟩
  committed l hl hfate := by
    rcases List.mem_append.1 hl with hold | hnew
    · exact h.committed l hold hfate
    · cases List.mem_singleton.1 hnew
      cases hfate

/-- a transaction that has not reached its end has sent nothing -/
theorem MailInv.unsent (h : MailInv st prog mk Shows d₀ m) (ha : m.conf.active t = some a)
    (hrest : ∀ x, a.rest ≠ .done x) : ∀ l ∈ m.letters, l.fate ≠ .pending t := by
  intro l hl hfate
  obtain ⟨b, x, hb, hdone, -⟩ := h.pending l hl t hfate
  rw [ha] at hb
  cases hb
  exact hrest x hdone

theorem mailInv_init (d : D) : MailInv st prog mk Shows d (Mail.init d) where
  machine := minv_init d
  active t a ha := by cases ha
  pending l hl := by cases hl
  committed l hl := by cases hl

variable [DecidableEq S.Key]

/-- one statement of an open transaction -/
theorem mailInv_advance (hann : Announcing st prog mk Shows) (h : MailInv st prog mk Shows d₀ m)
    (ha : m.conf.active t = some a) : MailInv st prog mk Shows d₀ (m.step st prog (.tx (.step t))) := by
  have hstep : Machine.step st prog m.conf (.step t) = m.conf.advance st t a := by simp only [Machine.step, ha]
  have hmachine := minv_step h.machine (.step t)
  rw [hstep] at hmachine
  cases advance_cases st m.conf t a with
  | waits hinner hwaits =>
    rw [Mail.step, hstep, lettersAfter_inner ha hinner, hwaits]
    exact h
  | goes hinner a' hop hnext hdb howner hkeeps hactive =>
    rw [Mail.step, hstep, lettersAfter_inner ha hinner]
    refine h.goes hmachine (h.unsent ha ?_) (Or.inl ?_) hdb hactive
    · rintro x hdone
      rw [hdone] at hinner
      exact hinner
    · rw [hop]
      exact hnext.announces (Prog.Announces.not_done hinner (h.active t a ha))
  | commits x hrest hcommit =>
    rw [Mail.step, hstep, hcommit, Mail.lettersAfter, ha]
    simp only [hrest]
    exact h.commit hann ha hrest
  | rolls e hrest hfinish =>
    rw [Mail.step, hstep, hfinish, Mail.lettersAfter, ha]
    simp only [hrest]
    exact h.rollback t
  | sends msg next hrest hdb howner hactive =>
    have hlast : ∃ x, next = .done x ∧ mk a.op x = some msg := by
      rcases h.active t a ha with hann' | ⟨x, hdone⟩
      · rw [hrest] at hann'
        exact hann'
      · rw [hrest] at hdone
        cases hdone
    obtain ⟨x, hnext, hmk⟩ := hlast
    have hletters : m.lettersAfter (.step t) = m.letters ++ [⟨msg, .pending t⟩] := by
      simp only [Mail.lettersAfter, ha, hrest]
    rw [Mail.step, hstep, hletters]
    have hgoes := h.goes hmachine (h.unsent ha (by simp [hrest])) (Or.inr ⟨x, hnext⟩) hdb hactive
    refine hgoes.sent (a := { a with rest := next }) ?_ hnext hmk
    rw [hactive, Function.update_self]

theorem mailInv_step (hann : Announcing st prog mk Shows) (h : MailInv st prog mk Shows d₀ m) (ev : MailEvent O) :
    MailInv st prog mk Shows d₀ (m.step st prog ev) := by
  cases ev with
  | deliver i => exact h
  | tx ev =>
    cases ev with
    | kill t => exact h.rollback t
    | start t o =>
      have hmachine := minv_step h.machine (.start t o)
      simp only [Machine.step] at hmachine
      simp only [Mail.step, Mail.lettersAfter, Machine.step]
      cases ha : m.conf.active t with
      | some a => exact h
      | none =>
        rw [ha] at hmachine
        refine h.goes hmachine (fun l hl hfate => ?_) (Or.inl (hann.last o)) rfl rfl
        obtain ⟨a, x, hactive, -⟩ := h.pending l hl t hfate
        rw [ha] at hactive
        cases hactive
    | step t =>
      cases ha : m.conf.active t with
      | none =>
        simp only [Mail.step, Mail.lettersAfter, Machine.step, ha]
        exact h
      | some a => exact mailInv_advance hann h ha

end Inv

/-! ## What is handled, and when -/

/-- What is handled is true, and nothing has been sent by a transaction that was rolled back. `Reads`: the worker does
look at the database. -/
def Mail.Truthful (Shows : S.Msg → D → Prop) (Reads : Prop) (m : Mail S D A O) : MailEvent O → Prop
  | .tx ev => ∀ l ∈ m.lettersAfter ev, l.fate ≠ .lost
  | .deliver i => Reads → ∀ l, m.letters[i]? = some l → Shows l.msg m.conf.db

/-- no rollback comes after a message, and no message is handled before its commit -/
def Mail.Timely (Reads : Prop) (m : Mail S D A O) : MailEvent O → Prop
  | .tx (.kill t) => ∀ l ∈ m.letters, l.fate ≠ .pending t
  | .tx _ => True
  | .deliver i => Reads → ∀ l, m.letters[i]? = some l → l.fate = .committed

section Handled

variable {st : Store S D} {prog : O → Prog S A} {mk : O → A → Option S.Msg} {Shows : S.Msg → D → Prop} {Reads : Prop}
  {d₀ : D} {m : Mail S D A O}

/-- one event, while nothing is lost -/
theorem truthful_step (hann : Announcing st prog mk Shows) (h : MailInv st prog mk Shows d₀ m)
    (hls : ∀ l ∈ m.letters, l.fate ≠ .lost) (ev : MailEvent O) : m.Truthful Shows Reads ev ↔ m.Timely Reads ev := by
  cases ev with
  | deliver i =>
    refine forall_congr' fun _ => forall_congr' fun l => forall_congr' fun hl => ?_
    have hmem : l ∈ m.letters := List.mem_of_getElem? hl
    constructor
    · intro hshows
      cases hfate : l.fate with
      | committed => rfl
      | lost => exact absurd hfate (hls l hmem)
      | pending t => exact absurd hshows (h.not_shows hann hmem hfate)
    · exact h.committed l hmem
  | tx ev =>
    cases ev with
    | start t o => exact iff_of_true hls trivial
    | kill t => exact (settle_not_lost hls).trans (or_iff_right fun hne => hne rfl)
    | step t =>
      refine iff_of_true ?_ trivial
      change ∀ l ∈ m.lettersAfter (.step t), l.fate ≠ .lost
      cases ha : m.conf.active t with
      | none =>
        simp only [Mail.lettersAfter, ha]
        exact hls
      | some a =>
        cases hrest : a.rest with
        | done x =>
          simp only [Mail.lettersAfter, ha, hrest]
          exact (settle_not_lost hls).2 (Or.inl (by simp))
        | fail e =>
          simp only [Mail.lettersAfter, ha, hrest]
          exact (settle_not_lost hls).2 (Or.inr (h.unsent ha (by simp [hrest])))
        | send msg next =>
          simp only [Mail.lettersAfter, ha, hrest]
          rw [List.forall_mem_append, List.forall_mem_singleton]
          exact ⟨hls, by simp⟩
        | _ =>
          simp only [Mail.lettersAfter, ha, hrest]
          exact hls

variable [DecidableEq S.Key]

/-- what is true of the event leaves nothing lost -/
theorem not_lost_after {ev : MailEvent O} (hls : ∀ l ∈ m.letters, l.fate ≠ .lost) (h : m.Truthful Shows Reads ev) :
    ∀ l ∈ (m.step st prog ev).letters, l.fate ≠ .lost := by
  cases ev with
  | tx ev => exact h
  | deliver i => exact hls

/-- **Every message handled is true**, and none was sent in vain, exactly if no rollback comes after a message and no
message is handled before the commit. -/
theorem truthful_iff_timely (hann : Announcing st prog mk Shows) (d : D) (evs : List (MailEvent O)) :
    Mail.Always st prog (Mail.Truthful Shows Reads) (Mail.init d) evs ↔
      Mail.Always st prog (Mail.Timely Reads) (Mail.init d) evs := by
  have hrun : ∀ m : Mail S D A O, MailInv st prog mk Shows d m → (∀ l ∈ m.letters, l.fate ≠ .lost) →
      (Mail.Always st prog (Mail.Truthful Shows Reads) m evs ↔ Mail.Always st prog (Mail.Timely Reads) m evs) := by
    induction evs with
    | nil => exact fun m _ _ => Iff.rfl
    | cons ev evs ih =>
      intro m hm hls
      have hstep : m.Truthful Shows Reads ev ↔ m.Timely Reads ev := truthful_step hann hm hls ev
      constructor
      · rintro ⟨hev, hevs⟩
        exact ⟨hstep.1 hev, (ih _ (mailInv_step hann hm ev) (not_lost_after hls hev)).1 hevs⟩
      · rintro ⟨hev, hevs⟩
        have htrue := hstep.2 hev
        exact ⟨htrue, (ih _ (mailInv_step hann hm ev) (not_lost_after hls htrue)).2 hevs⟩
  exact hrun (Mail.init d) (mailInv_init d) fun l hl => by cases hl

end Handled

end GigMarketplace.Core
