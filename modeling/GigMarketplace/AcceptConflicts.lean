/-
What accept_job's query raises, among any other transactions.

The query locks the job's row and, as the lookup joins the employer, the employer's row, both without waiting;
DoesNotExist becomes NotFoundException, every other exception a ConflictException, also the ValueError of an id that
is no integer. `Peer`: beside the operations of `System.lean` any other transaction may run, with any locks, as long
as the foreign key of a job's employer holds after it.

Results:
- `acceptRule`: where a running accept_job is: at its query, between its two rows, or beyond it with both rows locked;
- `accept_conflict_iff`: in every run, every accept_job that raises a ConflictException does so while another
  transaction holds the job's row, and what it raises or returns is NotFoundException exactly if there is no such job,
  exactly if the id of each is an integer and nobody else holds the employer's row when it has locked the job's;
- `accept_conflicts`: an id that is no integer, and two accepts of two jobs of one employer.
-/
import GigMarketplace.Concurrency
import GigMarketplace.Core.Statement

namespace GigMarketplace

open GigMarketplace.Core GigMarketplace.Core.Prog

/-! ## Transactions -/

/-- the foreign key of a job's employer -/
def EmployersKnown (db : DB) : Prop := ∀ job ∈ db.jobs.rows, (db.users.find job.employer).isSome

inductive Peer where
  | call (op : Op)
  | other (p : Tx Unit) (h : ∀ db db', EmployersKnown db → Runs store p db () db' → EmployersKnown db')

def Peer.prog (E : Env) : Peer → Tx Unit
  | .call op => op.prog E
  | .other p _ => p

abbrev PeerConf := Conf gig DB Unit Peer

theorem employers_step {E : Env} {db db' : DB} {op : Op} (h : EmployersKnown db) (hs : Step E db op db') :
    EmployersKnown db' := by
  intro job hjob
  rw [hs.users]
  rcases hs.job_from hjob with hold | ⟨id, employer, data, now, rfl, huser⟩ | ⟨old, hold, hmove, -, -⟩
  · exact h job hold
  · exact huser
  · rw [hmove.same.2.1]
    exact h old hold

theorem employers_serial {E : Env} {db db' : DB} {os : List Peer} (h : EmployersKnown db)
    (hser : Serial store (Peer.prog E) db os db') : EmployersKnown db' := by
  refine Serial.inv (fun d o a d' hd hruns => ?_) h hser
  cases o with
  | call op => exact employers_step hd (runs_prog.1 hruns)
  | other p hp => exact hp d d' hd hruns

/-! ## The phases of accept_job -/

section Phases

variable (E : Env) (jobId : String) (worker : User) (now : Time)

/-- what accept_job does with the job it has fetched -/
def acceptFetched (job : Job) : Tx Job := do
  raiseIf (job.status ≠ .created) (.jobState s!"Job cannot be accepted. Current status: {job.status.value}.")
  raiseIf (job.employer = worker.id) (.forbidden "You cannot accept your own job.")
  let job := { job with worker := some worker.id, status := .accepted, acceptedAt := some now }
  @present gig (.user worker.id) .databaseError
  @set gig (.job job.id) fun r => { r with worker := job.worker, status := job.status, acceptedAt := job.acceptedAt }
  @delay gig (.notifyJobAccepted job.id)
  return job

/-- the joined row of the query -/
def askEmployer (job : Job) : Tx Unit :=
  @Prog.lock gig Unit (.user job.employer) (some beingProcessed) (fun _ => true) (.notFound "Job not found.")
    fun _ => discard (acceptFetched worker now job)

/-- the query -/
def askJob (id : Pk) : Tx Unit :=
  @Prog.lock gig Unit (.job id) (some beingProcessed) (fun _ => true) (.notFound "Job not found.")
    fun job => askEmployer worker now job

variable {E jobId worker now}

theorem acceptJob_prog (hworker : worker.isWorker = true) :
    Op.prog E (.acceptJob jobId worker now) = match E.py.int jobId with
      | none => .fail beingProcessed
      | some id => askJob worker now id := by
  simp only [Op.prog, JobService.acceptJob, raiseIf, hworker, not_true, if_false]
  unfold Job.getNowait
  cases E.py.int jobId with
  | none => rfl
  | some id => rfl

/-- neither of the two exceptions of the query -/
def Exc.Later (e : Exc) : Prop := (∀ msg, e ≠ .conflict msg) ∧ ∀ msg, e ≠ .notFound msg

theorem errs_fetched (job : Job) : (discard (acceptFetched worker now job)).Errs Exc.Later := by
  refine errs_bind ?_ fun _ => trivial
  refine errs_bind (errs_raiseIf (by simp [Exc.Later])) fun _ => ?_
  refine errs_bind (errs_raiseIf (by simp [Exc.Later])) fun _ => ?_
  exact ⟨by simp [Exc.Later], trivial⟩

/-- where a running accept_job is, by what it has locked and what it still has to do -/
inductive AcceptPhase (E : Env) (jobId : String) (worker : User) (now : Time) (held : Key → Prop) (db : DB) :
    Tx Unit → List (Eff gig) → Prop where
  | raised (e : Exc) (work : List (Eff gig)) : AcceptPhase E jobId worker now held db (.fail e) work
  | asking (id : Pk) (hid : E.py.int jobId = some id) (hnone : ∀ k, ¬ held k) :
      AcceptPhase E jobId worker now held db (askJob worker now id) []
  | fetched (id : Pk) (job : Job) (hid : E.py.int jobId = some id) (hjob : held (.job id))
      (hrow : db.jobs.find id = some job) : AcceptPhase E jobId worker now held db (askEmployer worker now job) []
  | answered (id : Pk) (job : Job) (rest : Tx Unit) (work : List (Eff gig)) (hid : E.py.int jobId = some id)
      (hjob : held (.job id)) (hrow : db.jobs.find id = some job) (hemployer : held (.user job.employer))
      (hrest : rest.Errs Exc.Later) : AcceptPhase E jobId worker now held db rest work

/-- the phase of every accept_job by a worker -/
def AcceptPhases (E : Env) (held : Key → Prop) (db : DB) (a : Active gig Unit Peer) : Prop :=
  ∀ jobId worker now, a.op = .call (.acceptJob jobId worker now) → worker.isWorker = true →
    AcceptPhase E jobId worker now held db a.rest a.work

theorem phase_start (E : Env) (db : DB) (o : Peer) : AcceptPhases E (fun _ => False) db ⟨o, o.prog E, []⟩ := by
  intro jobId worker now hop hworker
  change o = _ at hop
  subst hop
  change AcceptPhase E jobId worker now _ db (Op.prog E (.acceptJob jobId worker now)) []
  rw [acceptJob_prog hworker]
  cases hid : E.py.int jobId with
  | none => exact .raised beingProcessed []
  | some id => exact .asking id hid fun _ h => h

theorem phase_frame {held : Key → Prop} {db db' : DB} {rest : Tx Unit} {work : List (Eff gig)}
    (hagree : Agree store held db db') (h : AcceptPhase E jobId worker now held db rest work) :
    AcceptPhase E jobId worker now held db' rest work := by
  cases h with
  | raised e work => exact .raised e work
  | asking id hid hnone => exact .asking id hid hnone
  | fetched id job hid hjob hrow => exact .fetched id job hid hjob ((hagree.rows _ hjob).trans hrow)
  | answered id job rest work hid hjob hrow hemployer hrest =>
    exact .answered id job rest work hid hjob ((hagree.rows _ hjob).trans hrow) hemployer hrest

section Own

variable {c : PeerConf} {t : ℕ} {a a' : Active gig Unit Peer}

/-- the transaction goes on without a new lock -/
theorem goOn_active {p : Tx Unit} (h : c.advance store t a = c.goOn t a p)
    (ha' : (c.advance store t a).active t = some a') : a' = { a with rest := p } := by
  rw [h] at ha'
  simp only [Conf.goOn, Function.update_self, Option.some.injEq] at ha'
  exact ha'.symm

theorem acquire_active {k : Key} {w : List (Eff gig)} {p : Tx Unit} (h : c.advance store t a = c.acquire t a k w p)
    (ha' : (c.advance store t a).active t = some a') : a' = { a with rest := p, work := a.work ++ w } := by
  rw [h] at ha'
  simp only [Conf.acquire, Function.update_self, Option.some.injEq] at ha'
  exact ha'.symm

theorem acquire_held {k : Key} {w : List (Eff gig)} {p : Tx Unit} (h : c.advance store t a = c.acquire t a k w p) :
    (c.advance store t a).owner k = some t := by
  rw [h]
  exact Function.update_self ..

/-- **A statement of accept_job.** -/
theorem phase_own (ha : c.active t = some a)
    (h : AcceptPhase E jobId worker now (fun k => c.owner k = some t) c.db a.rest a.work)
    (ha' : (c.advance store t a).active t = some a') :
    AcceptPhase E jobId worker now (fun k => (c.advance store t a).owner k = some t) (c.advance store t a).db a'.rest
      a'.work := by
  have hopen := advance_open ha ha'
  rw [hopen.db]
  obtain ⟨op, rest, work⟩ := a
  cases h with
  | raised e =>
    change (c.finish t).active t = some a' at ha'
    simp [Conf.finish] at ha'
  | asking id hid hnone =>
    rcases advance_nowait store c t ⟨op, askJob worker now id, []⟩ rfl with
      ⟨-, hadv⟩ | ⟨job, hrow, -, hadv⟩ | ⟨job, -, -, hadv⟩
    · cases goOn_active hadv ha'
      exact .raised _ _
    · cases acquire_active hadv ha'
      exact .fetched id job hid (acquire_held hadv) hrow
    · cases goOn_active hadv ha'
      exact .raised _ _
  | fetched id job hid hjob hrow =>
    rcases advance_nowait store c t ⟨op, askEmployer worker now job, []⟩ rfl with
      ⟨-, hadv⟩ | ⟨employer, -, -, hadv⟩ | ⟨employer, -, -, hadv⟩
    · cases goOn_active hadv ha'
      exact .raised _ _
    · cases acquire_active hadv ha'
      exact .answered id job _ _ hid (hopen.holds _ hjob) hrow (acquire_held hadv) (errs_fetched job)
    · cases goOn_active hadv ha'
      exact .raised _ _
  | answered id job rest work hid hjob hrow hemployer hrest =>
    exact .answered id job a'.rest a'.work hid (hopen.holds _ hjob) hrow (hopen.holds _ hemployer) (hopen.errs hrest)

theorem acceptRule (E : Env) : PhaseRule store (Peer.prog E) (AcceptPhases E) where
  start := phase_start E
  frame held db db' a hagree h jobId worker now hop hworker := phase_frame hagree (h jobId worker now hop hworker)
  own c t a a' ha h ha' jobId worker now hop hworker := by
    have hop' : a.op = .call (.acceptJob jobId worker now) := (advance_open ha ha').op.symm.trans hop
    exact phase_own ha (h jobId worker now hop' hworker) ha'

end Own

end Phases

/-! ## The law -/

/-- no job has the id -/
def NoSuchJob (E : Env) (db : DB) (jobId : String) : Prop := ∀ id, E.py.int jobId = some id → db.jobs.find id = none

/-- What the body of an accept_job by a worker raises or returns with this event: a ConflictException only while another
transaction holds the job's row, and NotFoundException exactly if there is no such job. -/
def AcceptHonest (E : Env) (c : PeerConf) (ev : Event Peer) : Prop :=
  ∀ t a jobId worker now r, (Machine.step store (Peer.prog E) c ev).active t = some a →
    a.op = .call (.acceptJob jobId worker now) → worker.isWorker = true → c.outcome t = none → a.rest.outcome = some r →
    ((∃ msg, r = .error (.conflict msg)) → ∃ id u, E.py.int jobId = some id ∧ u ≠ t ∧ c.owner (.job id) = some u) ∧
      ((∃ msg, r = .error (.notFound msg)) ↔ NoSuchJob E c.db jobId)

/-- An accept_job that starts has an integer id, and one that has locked its job finds the employer's row free. -/
def AcceptClear (E : Env) (c : PeerConf) : Event Peer → Prop
  | .start t (.call (.acceptJob jobId worker _)) =>
    worker.isWorker = true → c.active t = none → E.py.int jobId ≠ none
  | .step t => ∀ a jobId worker now id job, c.active t = some a → a.op = .call (.acceptJob jobId worker now) →
      worker.isWorker = true → a.rest.outcome = none → E.py.int jobId = some id → c.owner (.job id) = some t →
      c.db.jobs.find id = some job → c.Free t (.user job.employer)
  | _ => True

/-- what an accept_job of the transaction `t` may raise or return -/
def AcceptAnswer (E : Env) (c : PeerConf) (t : ℕ) (jobId : String) (r : Except Exc Unit) : Prop :=
  ((∃ msg, r = .error (.conflict msg)) → ∃ id u, E.py.int jobId = some id ∧ u ≠ t ∧ c.owner (.job id) = some u) ∧
    ((∃ msg, r = .error (.notFound msg)) ↔ NoSuchJob E c.db jobId)

section Law

variable {E : Env} {c : PeerConf} {t : ℕ} {a a' : Active gig Unit Peer} {jobId : String} {worker : User} {now : Time}
  {id : Pk} {job : Job} {r : Except Exc Unit}

theorem not_noSuchJob (hid : E.py.int jobId = some id) (hrow : c.db.jobs.find id = some job) :
    ¬ NoSuchJob E c.db jobId := by
  intro hno
  rw [hno id hid] at hrow
  cases hrow

/-- another transaction holds what is not free -/
theorem held_of_not_free {k : Key} (h : ¬ c.Free t k) : ∃ u, u ≠ t ∧ c.owner k = some u := by
  simp only [Conf.Free, not_forall] at h
  obtain ⟨u, howner, hu⟩ := h
  exact ⟨u, hu, howner⟩

/-- beyond its query, accept_job raises neither of the two -/
theorem answer_later {rest : Tx Unit} (h : rest.Errs Exc.Later) (hr : rest.outcome = some r)
    (hid : E.py.int jobId = some id) (hrow : c.db.jobs.find id = some job) : AcceptAnswer E c t jobId r := by
  constructor
  · rintro ⟨msg, rfl⟩
    exact absurd rfl ((h.outcome hr).1 msg)
  · refine iff_of_false ?_ (not_noSuchJob hid hrow)
    rintro ⟨msg, rfl⟩
    exact (h.outcome hr).2 msg rfl

/-- the lock of the job's row -/
theorem answer_asking {op : Peer} (hid : E.py.int jobId = some id)
    (ha' : (c.advance store t ⟨op, askJob worker now id, []⟩).active t = some a') (hr : a'.rest.outcome = some r) :
    AcceptAnswer E c t jobId r := by
  rcases advance_nowait store c t ⟨op, askJob worker now id, []⟩ rfl with
    ⟨hget, hadv⟩ | ⟨job, -, -, hadv⟩ | ⟨job, hget, hbusy, hadv⟩
  · cases goOn_active hadv ha'
    cases hr
    constructor
    · rintro ⟨msg, h⟩
      cases h
    · refine iff_of_true ⟨_, rfl⟩ fun id' hid' => ?_
      rw [hid] at hid'
      cases hid'
      exact hget
  · cases acquire_active hadv ha'
    cases hr
  · cases goOn_active hadv ha'
    cases hr
    constructor
    · intro _
      obtain ⟨u, hu, howner⟩ := held_of_not_free hbusy
      exact ⟨id, u, hid, hu, howner⟩
    · refine iff_of_false ?_ (not_noSuchJob hid hget)
      rintro ⟨msg, h⟩
      cases h

/-- the lock of the employer's row, which is a conflict too if another transaction holds it -/
theorem answer_fetched {op : Peer} (hemployers : EmployersKnown c.db) (hid : E.py.int jobId = some id)
    (hjob : c.owner (.job id) = some t) (hrow : c.db.jobs.find id = some job) :
    (∀ a' r, (c.advance store t ⟨op, askEmployer worker now job, []⟩).active t = some a' →
      a'.rest.outcome = some r → AcceptAnswer E c t jobId r) ↔ c.Free t (.user job.employer) := by
  rcases advance_nowait store c t ⟨op, askEmployer worker now job, []⟩ rfl with
    ⟨hget, -⟩ | ⟨employer, -, hfree, hadv⟩ | ⟨employer, -, hbusy, hadv⟩
  · have hknown := hemployers job (Table.mem_of_find hrow)
    rw [show c.db.users.find job.employer = none from hget] at hknown
    cases hknown
  · refine iff_of_true (fun a' r ha' hr => ?_) hfree
    cases acquire_active hadv ha'
    exact answer_later (errs_fetched job) hr hid hrow
  · refine iff_of_false (fun hhonest => ?_) hbusy
    have hactive : (c.advance store t ⟨op, askEmployer worker now job, []⟩).active t =
        some ⟨op, .fail beingProcessed, []⟩ := by
      rw [hadv]
      exact Function.update_self ..
    obtain ⟨id', u, hid', hu, howner⟩ := (hhonest _ _ hactive rfl).1 ⟨_, rfl⟩
    rw [hid] at hid'
    cases hid'
    rw [hjob] at howner
    cases howner
    exact hu rfl

/-- **What a statement of a running accept_job raises or returns.** -/
theorem honest_phase (ha : c.active t = some a) (hemployers : EmployersKnown c.db)
    (h : AcceptPhase E jobId worker now (fun k => c.owner k = some t) c.db a.rest a.work)
    (hopen : a.rest.outcome = none) :
    (∀ a' r, (c.advance store t a).active t = some a' → a'.rest.outcome = some r → AcceptAnswer E c t jobId r) ↔
      ∀ id job, E.py.int jobId = some id → c.owner (.job id) = some t → c.db.jobs.find id = some job →
        c.Free t (.user job.employer) := by
  obtain ⟨op, rest, work⟩ := a
  -- the job that the transaction has locked is the one of the phase
  have hsame : ∀ {id job}, E.py.int jobId = some id → c.db.jobs.find id = some job → ∀ {id' job'},
      E.py.int jobId = some id' → c.db.jobs.find id' = some job' → job' = job := by
    intro id job hid hrow id' job' hid' hrow'
    rw [hid] at hid'
    cases hid'
    exact Option.some.inj (hrow'.symm.trans hrow)
  cases h with
  | raised e => cases hopen
  | asking id hid hnone =>
    exact iff_of_true (fun a' r ha' hr => answer_asking hid ha' hr) fun id' job _ howner _ => absurd howner (hnone _)
  | fetched id job hid hjob hrow =>
    refine (answer_fetched hemployers hid hjob hrow).trans ⟨fun hfree id' job' hid' _ hrow' => ?_, fun hclear => ?_⟩
    · rw [hsame hid hrow hid' hrow']
      exact hfree
    · exact hclear id job hid hjob hrow
  | answered id job rest work hid hjob hrow hemployer hrest =>
    refine iff_of_true (fun a' r ha' hr => ?_) fun id' job' hid' _ hrow' u hu => ?_
    · exact answer_later ((advance_open ha ha').errs hrest) hr hid hrow
    · rw [hsame hid hrow hid' hrow', hemployer] at hu
      exact (Option.some.inj hu).symm

/-- only the event's own transaction raises or returns -/
theorem honest_own {d₀ : DB} (h : MInv store (Peer.prog E) d₀ c) (ev : Event Peer) : AcceptHonest E c ev ↔
    ∀ a jobId worker now r, (Machine.step store (Peer.prog E) c ev).active ev.tx = some a →
      a.op = .call (.acceptJob jobId worker now) → worker.isWorker = true → c.outcome ev.tx = none →
      a.rest.outcome = some r → AcceptAnswer E c ev.tx jobId r := by
  constructor
  · intro hhonest a
    exact hhonest ev.tx a
  · intro hown t a jobId worker now r ha hop hworker hopen hr
    by_cases ht : t = ev.tx
    · subst ht
      exact hown a jobId worker now r ha hop hworker hopen hr
    · rw [(others_step h ht).active] at ha
      have hnone : a.rest.outcome = none := by simpa only [Conf.outcome, ha, Option.bind_some] using hopen
      rw [hnone] at hr
      cases hr

/-- an accept_job starts -/
theorem honest_start (hactive : c.active t = none) :
    (∀ a jobId' worker' now' r,
      (Machine.step store (Peer.prog E) c (.start t (.call (.acceptJob jobId worker now)))).active t = some a →
      a.op = .call (.acceptJob jobId' worker' now') → worker'.isWorker = true → c.outcome t = none →
      a.rest.outcome = some r → AcceptAnswer E c t jobId' r) ↔ (worker.isWorker = true → E.py.int jobId ≠ none) := by
  simp only [Machine.step, hactive, Function.update_self, Option.some.injEq]
  constructor
  · intro hhonest hworker hid
    have hprog : (Op.prog E (.acceptJob jobId worker now)).outcome = some (.error beingProcessed) := by
      rw [acceptJob_prog hworker, hid]
      rfl
    have hopen : c.outcome t = none := by rw [Conf.outcome, hactive]; rfl
    obtain ⟨id, u, hid', -⟩ := (hhonest _ jobId worker now _ rfl rfl hworker hopen hprog).1 ⟨_, rfl⟩
    rw [hid] at hid'
    cases hid'
  · rintro hclear a jobId' worker' now' r rfl hop hworker - hr
    cases hop
    change (Op.prog E (.acceptJob jobId worker now)).outcome = some r at hr
    rw [acceptJob_prog hworker] at hr
    cases hid : E.py.int jobId with
    | none => exact absurd hid (hclear hworker)
    | some id =>
      rw [hid] at hr
      cases hr

/-- a transaction goes on -/
theorem honest_statement (hphase : InPhase (AcceptPhases E) c) (hemployers : EmployersKnown c.db) :
    (∀ a jobId worker now r, (Machine.step store (Peer.prog E) c (.step t)).active t = some a →
      a.op = .call (.acceptJob jobId worker now) → worker.isWorker = true → c.outcome t = none →
      a.rest.outcome = some r → AcceptAnswer E c t jobId r) ↔ AcceptClear E c (.step t) := by
  constructor
  · intro hhonest a jobId worker now id job ha hop hworker hopen hid howner hrow
    have hstep : Machine.step store (Peer.prog E) c (.step t) = c.advance store t a := by simp only [Machine.step, ha]
    have hopen' : c.outcome t = none := by rw [Conf.outcome, ha]; exact hopen
    rw [hstep] at hhonest
    refine (honest_phase ha hemployers (hphase t a ha jobId worker now hop hworker) hopen).1 (fun a' r ha' hr => ?_)
      id job hid howner hrow
    exact hhonest a' jobId worker now r ha' ((advance_open ha ha').op.trans hop) hworker hopen' hr
  · intro hclear a' jobId worker now r ha' hop hworker hopen hr
    cases ha : c.active t with
    | none =>
      simp only [Machine.step, ha] at ha'
      cases ha'
    | some a =>
      simp only [Machine.step, ha] at ha'
      have hop' : a.op = .call (.acceptJob jobId worker now) := (advance_open ha ha').op.symm.trans hop
      have hopen' : a.rest.outcome = none := by simpa only [Conf.outcome, ha, Option.bind_some] using hopen
      refine (honest_phase ha hemployers (hphase t a ha jobId worker now hop' hworker) hopen').2 (fun id job => ?_)
        a' r ha' hr
      exact hclear a jobId worker now id job ha hop' hworker hopen'

/-- **An event of a run.** -/
theorem honest_iff {d₀ : DB} (h : MInv store (Peer.prog E) d₀ c) (hphase : InPhase (AcceptPhases E) c)
    (hemployers : EmployersKnown c.db) (ev : Event Peer) : AcceptHonest E c ev ↔ AcceptClear E c ev := by
  rw [honest_own h ev]
  cases ev with
  | kill t =>
    refine iff_of_true (fun a jobId worker now r ha => ?_) trivial
    simp [Machine.step, Conf.finish, Event.tx] at ha
  | start t o =>
    cases hactive : c.active t with
    | some a₀ =>
      have hstay : Machine.step store (Peer.prog E) c (.start t o) = c := by simp only [Machine.step, hactive]
      rw [hstay]
      refine iff_of_true (fun a jobId worker now r ha hop hworker hopen hr => ?_) ?_
      · change c.active t = some a at ha
        change c.outcome t = none at hopen
        rw [Conf.outcome, ha, Option.bind_some, hr] at hopen
        cases hopen
      · cases o with
        | other p hp => trivial
        | call op =>
          cases op with
          | acceptJob jobId worker now =>
            intro _ hnone
            rw [hactive] at hnone
            cases hnone
          | _ => trivial
    | none =>
      have hop : ∀ a, (Machine.step store (Peer.prog E) c (.start t o)).active t = some a → a.op = o := by
        intro a ha
        simp only [Machine.step, hactive, Function.update_self, Option.some.injEq] at ha
        rw [← ha]
      cases o with
      | other p hp =>
        refine iff_of_true (fun a jobId worker now r ha hcall => ?_) trivial
        rw [hop a ha] at hcall
        cases hcall
      | call op =>
        cases op with
        | acceptJob jobId worker now =>
          exact (honest_start hactive).trans ⟨fun h hworker _ => h hworker, fun h hworker => h hworker hactive⟩
        | _ =>
          refine iff_of_true (fun a jobId worker now r ha hcall => ?_) trivial
          rw [hop a ha] at hcall
          cases hcall
  | step t => exact honest_statement hphase hemployers

end Law

/-- **Conflicts are real**, and NotFoundException means what it says, in every run among any transactions, exactly if
the id of every accept_job by a worker is an integer and, when it has locked its job, nobody else holds the employer's
row. -/
theorem accept_conflict_iff (E : Env) (db : DB) (hdb : EmployersKnown db) (evs : List (Event Peer)) :
    Machine.Always store (Peer.prog E) (AcceptHonest E) (Conf.init gig Unit Peer db) evs ↔
      Machine.Always store (Peer.prog E) (AcceptClear E) (Conf.init gig Unit Peer db) evs := by
  refine machine_always_congr (I := fun c => MInv store (Peer.prog E) db c ∧ InPhase (AcceptPhases E) c) ?_ ?_ ?_ evs
  · intro c ev hc
    exact ⟨minv_step hc.1 ev, phases_step (acceptRule E) hc.1 hc.2 ev⟩
  · intro c ev hc
    exact honest_iff hc.1 hc.2 (employers_serial hdb hc.1.serial) ev
  · refine ⟨minv_init db, fun t a ha => ?_⟩
    cases ha

/-- the market with two jobs of one employer; `int` knows their ids -/
def twoJobsEnv : Env :=
  { demoEnv with py := { demoPy with int := fun s => if s = "1" then some 1 else if s = "2" then some 2 else none } }

def secondWorker : User := ⟨3, "worker"⟩

def twoJobs : DB :=
  run twoJobsEnv (init ⟨[demoEmployer, demoWorker, secondWorker], by decide⟩)
    (demoPosted ++ [.createJob 2 demoEmployer demoJob 0])

/-- one worker has locked job 1 and its employer, another one job 2 -/
def demoTwoAccepts : List (Event Peer) :=
  [.start 0 (.call (.acceptJob "1" demoWorker 1)), .step 0, .step 0,
    .start 1 (.call (.acceptJob "2" secondWorker 1)), .step 1]

theorem accept_conflict_iff_demo :
    Machine.Always store (Peer.prog twoJobsEnv) (AcceptHonest twoJobsEnv) (Conf.init gig Unit Peer twoJobs)
        demoTwoAccepts ↔
      Machine.Always store (Peer.prog twoJobsEnv) (AcceptClear twoJobsEnv) (Conf.init gig Unit Peer twoJobs)
        demoTwoAccepts :=
  accept_conflict_iff twoJobsEnv twoJobs (by unfold EmployersKnown; decide +kernel) demoTwoAccepts

/-- an id that is no integer; and the second worker, who has locked job 2, which nobody else holds -/
theorem accept_conflicts :
    ¬ Machine.Always store (Peer.prog twoJobsEnv) (AcceptHonest twoJobsEnv) (Conf.init gig Unit Peer twoJobs)
        [.start 0 (.call (.acceptJob "abc" demoWorker 1))] ∧
      ¬ Machine.Always store (Peer.prog twoJobsEnv) (AcceptHonest twoJobsEnv) (Conf.init gig Unit Peer twoJobs)
        (demoTwoAccepts ++ [.step 1]) := by
  constructor
  · rintro ⟨hhonest, -⟩
    obtain ⟨id, u, hid, -⟩ := (hhonest 0 ⟨.call (.acceptJob "abc" demoWorker 1), .fail beingProcessed, []⟩ "abc"
      demoWorker 1 (.error beingProcessed) rfl rfl rfl rfl rfl).1 ⟨_, rfl⟩
    cases hid
  · intro h
    obtain ⟨-, hhonest, -⟩ := (machine_always_append store (Peer.prog twoJobsEnv)).1 h
    obtain ⟨id, u, hid, hu, howner⟩ := (hhonest 1 ⟨.call (.acceptJob "2" secondWorker 1), .fail beingProcessed, []⟩ "2"
      secondWorker 1 (.error beingProcessed) rfl rfl rfl rfl rfl).1 ⟨_, rfl⟩
    cases hid
    cases howner
    exact hu rfl

end GigMarketplace
