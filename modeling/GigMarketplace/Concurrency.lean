/-
The operations as interleaved transactions.

`interleave` runs any number of calls at the granularity of one statement: events start a call, advance it, or roll it
back, in any order; row locks are held to the end of a transaction, a blocked statement waits or, for NOWAIT, raises,
and a query that waited reads the row as it is when the lock is free (`Core/RowLock.lean`). `db` of a configuration is
the committed database, `history` the committed calls in the order of their commits.

Results, at every point of every interleaving:
- `no_lost_update`: the committed database is that of the committed calls one after another, and no balance is
  negative;
- `one_acceptor_one_ending`: each committed call's guard held in that serial order; per job at most one accept_job
  commits, its caller is the job's worker from then on, and at most one of complete_job and cancel_job commits;
- `exactly_once`: a payment request is COMPLETED exactly if it was credited, once, and never returns to PENDING.
-/
import GigMarketplace.Deposits
import GigMarketplace.Escrow

namespace GigMarketplace

open GigMarketplace.Core

/-- the configuration after the events, from the database `db` with no transaction open -/
def interleave (E : Env) (db : DB) (evs : List (Event Op)) : Conf gig DB Unit Op :=
  Machine.run store (Op.prog E) (Conf.init gig Unit Op db) evs

section Rules

variable {E : Env} {db : DB}

/-- **The invariant rule** for committed databases. -/
theorem interleave_inv {P : DB → Prop} (hs : ∀ db op db', P db → Step E db op db' → P db') (h : P db)
    (evs : List (Event Op)) : P (interleave E db evs).db :=
  machine_inv store (Op.prog E) (fun d o _ d' hd hr => hs d o d' hd (runs_prog.1 hr)) h evs

theorem interleave_serial (E : Env) (db : DB) (evs : List (Event Op)) :
    Serial store (Op.prog E) db (interleave E db evs).history (interleave E db evs).db :=
  serializable store (Op.prog E) db evs

/-- what holds of the committed database at one point and is kept by every operation holds later -/
theorem interleave_later {P : DB → Prop} (hs : ∀ db op db', P db → Step E db op db' → P db')
    (evs evs' : List (Event Op)) (h : P (interleave E db evs).db) : P (interleave E db (evs ++ evs')).db := by
  obtain ⟨os, -, hser⟩ := serializable_from store (Op.prog E) db evs evs'
  exact Serial.inv (fun d o _ d' hd hr => hs d o d' hd (runs_prog.1 hr)) h hser

end Rules

/-! ## Wallets -/

/-- **No update is lost.** From any database whose wallet columns satisfy their constraints: the committed wallets and
ledger are those of the committed calls run one after another, each of which then succeeds, and no wallet is
negative. -/
theorem no_lost_update (E : Env) (db : DB) (h : Ranged db.wallets) (evs : List (Event Op)) :
    Serial store (Op.prog E) db (interleave E db evs).history (interleave E db evs).db ∧
      (interleave E db evs).db = run E db (interleave E db evs).history ∧
      ∀ w ∈ (interleave E db evs).db.wallets.rows, 0 ≤ w.balance ∧ 0 ≤ w.heldBalance := by
  have hser := interleave_serial E db evs
  have hr : Ranged (interleave E db evs).db.wallets :=
    interleave_inv (P := fun db => Ranged db.wallets) (fun _ _ _ h hs => ranged_step h hs) h evs
  refine ⟨hser, hser.eq_foldl, fun w hw => ?_⟩
  have hcol := hr w.user w (Table.find_of_mem hw)
  exact ⟨(hcol .balance).1, (hcol .heldBalance).1⟩

/-- two jobs posted at once on one wallet, their statements in turn -/
def demoRace : List (Event Op) :=
  .start 0 (.initiateDeposit 1 demoEmployer 500000 "payme" "") :: List.replicate 6 (.step 0) ++
    .start 0 (.confirmDeposit (.int 1) "") :: List.replicate 10 (.step 0) ++
    [.start 0 (.createJob 1 demoEmployer demoJob 0), .start 1 (.createJob 2 demoEmployer demoJob 0)] ++
    (List.replicate 20 [.step 0, .step 1]).flatten

-- neither charge is lost
example : (interleave demoEnv (init demoUsers) demoRace).db.wallets.rows =
    [⟨1, 299990, 200010, 0, 200010⟩, ⟨2, 0, 0, 0, 0⟩] := by decide +kernel

theorem no_lost_update_demo : (interleave demoEnv (init demoUsers) demoRace).db =
    run demoEnv (init demoUsers) (interleave demoEnv (init demoUsers) demoRace).history :=
  (no_lost_update demoEnv (init demoUsers) (ranged_init demoUsers) demoRace).2.1

/-! ## Jobs -/

/-- the status and caller guards of an operation on a job, in the state `db` -/
def Op.Guard (E : Env) (db : DB) : Op → Prop
  | .acceptJob jobId worker _ => ∃ j, Fetched E db jobId j ∧ j.status = .created ∧ worker.isWorker ∧
      j.employer ≠ worker.id
  | .startJob jobId worker _ => ∃ j, Fetched E db jobId j ∧ j.status = .accepted ∧ j.worker = some worker.id
  | .completeJob jobId employer _ => ∃ j, Fetched E db jobId j ∧ j.status = .inProgress ∧ employer.isEmployer ∧
      j.employer = employer.id
  | .cancelJob jobId user _ _ => ∃ j, Fetched E db jobId j ∧ j.isOpen ∧
      (user.id = j.employer ∨ j.worker = some user.id)
  | _ => True

/-- the call accepts the job `id` -/
def Op.accepts (E : Env) (id : Pk) : Op → Bool
  | .acceptJob jobId _ _ => E.py.int jobId = some id
  | _ => false

/-- the call completes or cancels the job `id` -/
def Op.ends (E : Env) (id : Pk) : Op → Bool
  | .completeJob jobId _ _ => E.py.int jobId = some id
  | .cancelJob jobId _ _ _ => E.py.int jobId = some id
  | _ => false

section Jobs

variable {E : Env} {db db' : DB} {op : Op} {id : Pk}

theorem Step.guard (hs : Step E db op db') : op.Guard E db := by
  cases hs with
  | acceptJob hj hrole hstatus hown huser => exact ⟨_, hj, hstatus, hrole, hown⟩
  | startJob hj hworker hstatus => exact ⟨_, hj.toFetched, hstatus, hworker⟩
  | completeJob hj hrole hemployer hstatus hworker hwe hww hcols =>
    exact ⟨_, hj.toFetched, hstatus, hrole, hemployer⟩
  | cancelJob hj hcaller hopen hw hcols => exact ⟨_, hj.toFetched, hopen, hcaller⟩
  | _ => trivial

/-- the job `id` is there, and its row satisfies `P` -/
def HasJob (db : DB) (id : Pk) (P : Job → Prop) : Prop := ∃ j, db.jobs.find id = some j ∧ P j

/-- a fact that every move of a job keeps is kept by every step -/
theorem HasJob.step {P : Job → Prop} (hP : ∀ j j', P j → j.Move j' → P j') (h : HasJob db id P)
    (hs : Step E db op db') : HasJob db' id P := by
  obtain ⟨j, hj, hp⟩ := h
  obtain ⟨j', hj', rfl | hm⟩ := hs.job_kept hj
  · exact ⟨j', hj', hp⟩
  · exact ⟨j', hj', hP j j' hp hm⟩

/-- accepted by `u`, or beyond -/
def TakenBy (u : Pk) (j : Job) : Prop := j.worker = some u ∧ j.status ≠ .created

theorem TakenBy.move {u : Pk} (j j' : Job) (h : TakenBy u j) (hm : j.Move j') : TakenBy u j' :=
  ⟨(hm.worker h.2).trans h.1, hm.left_created⟩

theorem ended_move (j j' : Job) (h : ¬ j.isOpen) (hm : j.Move j') : ¬ j'.isOpen := absurd hm.isOpen h

theorem step_acceptJob {jobId : String} {worker : User} {now : Time} (hid : E.py.int jobId = some id)
    (hs : Step E db (.acceptJob jobId worker now) db') :
    HasJob db id (fun j => j.status = .created) ∧ HasJob db' id (TakenBy worker.id) := by
  cases hs with
  | @acceptJob jobId worker now j hj hrole hstatus hown huser =>
    have hji : j.id = id := Option.some.inj (hj.key.symm.trans hid)
    subst hji
    exact ⟨⟨j, hj.row, hstatus⟩, _, Table.find_update_self hj.row rfl, rfl, by simp⟩

theorem step_ends (hq : op.ends E id = true) (hs : Step E db op db') :
    HasJob db id Job.isOpen ∧ HasJob db' id fun j => ¬ j.isOpen := by
  cases hs with
  | @completeJob jobId employer now j we ww worker hj hrole hemployer hstatus hworker hwe hww hcols =>
    have hji : j.id = id := Option.some.inj (hj.key.symm.trans (of_decide_eq_true hq))
    subst hji
    exact ⟨⟨j, hj.row, Or.inr (Or.inr hstatus)⟩, _, Table.find_update_self hj.row rfl, by simp [Job.isOpen]⟩
  | @cancelJob jobId user reason now j w hj hcaller hopen hw hcols =>
    have hji : j.id = id := Option.some.inj (hj.key.symm.trans (of_decide_eq_true hq))
    subst hji
    exact ⟨⟨j, hj.row, hopen⟩, _, Table.find_update_self hj.row rfl, by simp [Job.isOpen]⟩
  | _ => simp [Op.ends] at hq

/-- two facts about the one row of a job -/
theorem HasJob.absurd {P Q : Job → Prop} (h : HasJob db id P) (h' : HasJob db id Q)
    (hPQ : ∀ j, P j → ¬ Q j) : False := by
  obtain ⟨j, hj, hp⟩ := h
  obtain ⟨j', hj', hq⟩ := h'
  rw [hj] at hj'
  cases hj'
  exact hPQ j hp hq

theorem accepts_once {os : List Op} (hh : Serial store (Op.prog E) db os db') : os.countP (Op.accepts E id) ≤ 1 := by
  refine Serial.once (P := fun d => HasJob d id fun j => j.status ≠ .created) (fun d o _ d' hd hr => ?_)
    (fun d o _ d' hq hr => ?_) (fun d o _ d' hd hr => ?_) hh
  · exact hd.step (fun _ _ _ hm => hm.left_created) (runs_prog.1 hr)
  · cases o with
    | acceptJob jobId worker now =>
      obtain ⟨j, hj, ht⟩ := (step_acceptJob (of_decide_eq_true hq) (runs_prog.1 hr)).2
      exact ⟨j, hj, ht.2⟩
    | _ => simp [Op.accepts] at hq
  · cases o with
    | acceptJob jobId worker now =>
      by_contra hq
      rw [Bool.not_eq_false] at hq
      exact hd.absurd (step_acceptJob (of_decide_eq_true hq) (runs_prog.1 hr)).1 fun _ h h' => h h'
    | _ => rfl

theorem ends_once {os : List Op} (hh : Serial store (Op.prog E) db os db') : os.countP (Op.ends E id) ≤ 1 := by
  refine Serial.once (P := fun d => HasJob d id fun j => ¬ j.isOpen) (fun d o _ d' hd hr => ?_)
    (fun d o _ d' hq hr => ?_) (fun d o _ d' hd hr => ?_) hh
  · exact hd.step ended_move (runs_prog.1 hr)
  · exact (step_ends hq (runs_prog.1 hr)).2
  · by_contra hq
    rw [Bool.not_eq_false] at hq
    exact hd.absurd (step_ends hq (runs_prog.1 hr)).1 fun _ h h' => h h'

end Jobs

/-- **One acceptor, one ending.** From any database, for any calls interleaved in any way: the committed calls have a
serial order in which the guard of each held when it ran; for each job at most one accept_job committed, its caller is
the job's worker from then on, and at most one of complete_job and cancel_job committed. -/
theorem one_acceptor_one_ending (E : Env) (db : DB) (evs : List (Event Op)) :
    Serial store (Op.prog E) db (interleave E db evs).history (interleave E db evs).db ∧
    (∀ os op os', (interleave E db evs).history = os ++ op :: os' → op.Guard E (run E db os)) ∧
    ∀ id, (interleave E db evs).history.countP (Op.accepts E id) ≤ 1 ∧
      (∀ jobId worker now, .acceptJob jobId worker now ∈ (interleave E db evs).history → E.py.int jobId = some id →
        HasJob (interleave E db evs).db id fun j => j.worker = some worker.id) ∧
      (interleave E db evs).history.countP (Op.ends E id) ≤ 1 := by
  have hser := interleave_serial E db evs
  refine ⟨hser, fun os op os' hh => ?_, fun id =>
    ⟨accepts_once hser, fun jobId worker now hmem hid => ?_, ends_once hser⟩⟩
  · rw [hh] at hser
    obtain ⟨a, db₂, hr⟩ := hser.at
    exact (runs_prog.1 hr).guard
  · have htaken : HasJob (interleave E db evs).db id (TakenBy worker.id) :=
      Serial.sticky (P := fun d => HasJob d id (TakenBy worker.id))
        (fun d _ d' hr => (step_acceptJob hid (runs_prog.1 hr)).2)
        (fun d o _ d' hd hr => hd.step TakenBy.move (runs_prog.1 hr)) hmem hser
    obtain ⟨j, hj, ht⟩ := htaken
    exact ⟨j, hj, ht.1⟩

/-- the database in which the job of the market is posted -/
def demoOpen : DB := run demoEnv (init demoUsers) demoPosted

/-- two clients accept the job at once; the second one meets the lock of the first -/
def demoAccepts : List (Event Op) :=
  [.start 0 (.acceptJob "1" demoWorker 1), .start 1 (.acceptJob "1" demoWorker 1)] ++
    List.replicate 3 (.step 0) ++ List.replicate 6 (.step 1) ++ List.replicate 6 (.step 0)

theorem one_acceptor_one_ending_demo :
    (interleave demoEnv demoOpen demoAccepts).history.countP (Op.accepts demoEnv 1) ≤ 1 :=
  ((one_acceptor_one_ending demoEnv demoOpen demoAccepts).2.2 1).1

/-! ## Payment requests -/

/-- `r'` is the row `r` of an earlier state: as it was, or COMPLETED since -/
def Continues (r r' : PaymentRequest) : Prop := r' = r ∨ (r.status = .pending ∧ r' = { r with status := .completed })

theorem continues_step {E : Env} {db db' : DB} {op : Op} {r : PaymentRequest}
    (h : ∃ r', db.requests.find r.id = some r' ∧ Continues r r') (hs : Step E db op db') :
    ∃ r', db'.requests.find r.id = some r' ∧ Continues r r' := by
  obtain ⟨r', hr', hc⟩ := h
  obtain ⟨r'', hr'', rfl | ⟨hp, rfl⟩⟩ := hs.request_kept hr'
  · exact ⟨r'', hr'', hc⟩
  · refine ⟨_, hr'', Or.inr ?_⟩
    rcases hc with rfl | ⟨hp', rfl⟩
    · exact ⟨hp, rfl⟩
    · cases hp

/-- **Exactly-once crediting.** For any initiate_deposit and confirm_deposit calls, and any others, interleaved in any
way: each payment request is COMPLETED if and only if it was credited, with one row of its amount on its wallet, and
otherwise has no row; a wallet's balance contains each of its COMPLETED requests once; and later the request is as it
was or COMPLETED, so it never returns to PENDING. -/
theorem exactly_once (E : Env) (users : Table User) (evs : List (Event Op)) :
    (∀ r ∈ (interleave E (init users) evs).db.requests.rows,
      (r.status = .completed ↔ CreditedOnce (interleave E (init users) evs).db r) ∧
      (r.status ≠ .completed → creditRows (interleave E (init users) evs).db r.id = []) ∧
      (creditRows (interleave E (init users) evs).db r.id).length ≤ 1 ∧
      ∀ evs', ∃ r', (interleave E (init users) (evs ++ evs')).db.requests.find r.id = some r' ∧ Continues r r') ∧
    ∀ w ∈ (interleave E (init users) evs).db.wallets.rows,
      w.balance = depositedBy (interleave E (init users) evs).db w.user + w.totalEarned - w.totalSpent := by
  have hcredits : Credits (interleave E (init users) evs).db :=
    interleave_inv (fun _ _ _ h hs => credits_step h hs) (credits_init users) evs
  have hinv : Inv E (interleave E (init users) evs).db :=
    interleave_inv (fun _ _ _ h hs => inv_step h hs) (inv_init E users) evs
  refine ⟨fun r hr => ?_, fun w hw => ?_⟩
  · have hpending : r.status ≠ .completed → creditRows (interleave E (init users) evs).db r.id = [] := fun hn => by
      rcases hcredits.status r hr with hp | hc
      · exact hcredits.pending r hr hp
      · exact absurd hc hn
    have hiff : r.status = .completed ↔ CreditedOnce (interleave E (init users) evs).db r := by
      refine ⟨hcredits.completed r hr, fun ⟨t, ht, _⟩ => ?_⟩
      by_contra hn
      rw [hpending hn] at ht
      cases ht
    refine ⟨hiff, hpending, ?_, fun evs' => ?_⟩
    · by_cases hc : r.status = .completed
      · obtain ⟨t, ht, -⟩ := hiff.1 hc
        rw [ht, List.length_singleton]
      · rw [hpending hc]; exact Nat.zero_le 1
    · exact interleave_later (P := fun db => ∃ r', db.requests.find r.id = some r' ∧ Continues r r')
        (fun _ _ _ h hs => continues_step h hs) evs evs' ⟨r, Table.find_of_mem hr, Or.inl rfl⟩
  · have hwallet := hinv.wallet (Table.find_of_mem hw)
    have hbalance := congrArg Wallet.balance hwallet
    have hearned := congrArg Wallet.totalEarned hwallet
    have hspent := congrArg Wallet.totalSpent hwallet
    simp only [pk_wallet] at hbalance hearned hspent
    rw [hbalance, hearned, hspent]

/-- both webhooks confirm one request at once -/
def demoConfirms : List (Event Op) :=
  .start 0 (.initiateDeposit 1 demoEmployer 500000 "payme" "") :: List.replicate 6 (.step 0) ++
    [.start 0 (.confirmDeposit (.int 1) ""), .start 1 (.confirmDeposit (.int 1) "")] ++
    (List.replicate 10 [.step 0, .step 1]).flatten

theorem exactly_once_demo : ∃ r ∈ (interleave demoEnv (init demoUsers) demoConfirms).db.requests.rows,
    CreditedOnce (interleave demoEnv (init demoUsers) demoConfirms).db r := by
  have hstatus : ∃ r ∈ (interleave demoEnv (init demoUsers) demoConfirms).db.requests.rows, r.status = .completed := by
    decide +kernel
  obtain ⟨r, hr, hc⟩ := hstatus
  exact ⟨r, hr, (((exactly_once demoEnv demoUsers demoConfirms).1 r hr).1).1 hc⟩

end GigMarketplace
