/-
The life of a job: CREATED, ACCEPTED, IN_PROGRESS, COMPLETED, with CANCELLED from each of the first three.

`Job.Move` is the state machine that the operations of JobService implement on one row, without callers, keys and
money. `Step.jobs` connects it to the operations: a step leaves the table of jobs as it is, adds a new CREATED row, or
moves one row.

Results:
- `Step.job_kept`: no job disappears, and each is as before or has moved;
- `Move.isOpen`, `Move.left_created`, `Move.worker`: only an open job moves, none becomes CREATED again, and a job that
  left CREATED keeps its worker;
- `Linked`: what the foreign keys and the guards keep true of every row in every reachable state (`linked_run`).
-/
import GigMarketplace.System

namespace GigMarketplace

open GigMarketplace.Core

/-! ## The state machine of one job -/

inductive Job.Move (j : Job) : Job → Prop where
  | accept (u : Pk) (now : Time) (h : j.status = .created) (hown : u ≠ j.employer) :
      Move j { j with worker := some u, status := .accepted, acceptedAt := some now }
  | start (now : Time) (h : j.status = .accepted) :
      Move j { j with status := .inProgress, startedAt := some now }
  | complete (now : Time) (h : j.status = .inProgress) :
      Move j { j with status := .completed, completedAt := some now }
  | cancel (reason : String) (now : Time) (h : j.isOpen) :
      Move j { j with status := .cancelled, cancelledAt := some now, cancelReason := reason }

namespace Job.Move

variable {j j' : Job}

theorem same (h : j.Move j') : j'.id = j.id ∧ j'.employer = j.employer ∧ j'.price = j.price ∧ j'.title = j.title := by
  cases h <;> exact ⟨rfl, rfl, rfl, rfl⟩

/-- only an open job moves -/
theorem isOpen (h : j.Move j') : j.isOpen := by
  cases h with
  | accept u now h hown => exact Or.inl h
  | start now h => exact Or.inr (Or.inl h)
  | complete now h => exact Or.inr (Or.inr h)
  | cancel reason now h => exact h

/-- a job never becomes CREATED again -/
theorem left_created (h : j.Move j') : j'.status ≠ .created := by
  cases h <;> simp

/-- the worker is chosen when the job leaves CREATED, and never changed -/
theorem worker (h : j.Move j') (hs : j.status ≠ .created) : j'.worker = j.worker := by
  cases h with
  | accept u now h hown => exact absurd h hs
  | _ => rfl

end Job.Move

/-! ## Steps and jobs -/

/-- what a step does to the table of jobs -/
inductive JobsChange (db db' : DB) : Prop where
  | same (h : db'.jobs = db.jobs)
  | posted (id : Pk) (employer : User) (data : JobData) (now : Time) (hfresh : db.jobs.find id = none)
      (huser : (db.users.find employer.id).isSome) (h : db'.jobs = db.jobs.insert (newJob id employer data now))
  | moved (j : Job) (f : Job → Job) (hj : db.jobs.find j.id = some j) (hid : (f j).id = j.id) (hmove : j.Move (f j))
      (hworker : ∀ u, (f j).worker = some u → j.worker = some u ∨ (db.users.find u).isSome)
      (hassigned : (f j).status = .completed → (f j).worker ≠ none)
      (h : db'.jobs = db.jobs.update j.id f)

section Steps

variable {E : Env} {db db' : DB} {op : Op}

theorem Step.jobs (h : Step E db op db') : JobsChange db db' := by
  cases h with
  | createJob hrole hprice huser hfresh hw hcover hcols => exact .posted _ _ _ _ hfresh huser rfl
  | @acceptJob jobId worker now j hj hrole hstatus hown huser =>
    refine .moved j _ hj.row rfl (.accept worker.id now hstatus (Ne.symm hown)) (fun u hu => Or.inr ?_) (by simp) rfl
    cases hu; exact huser
  | @startJob jobId worker now j hj hworker hstatus =>
    exact .moved j _ hj.row rfl (.start now hstatus) (fun u hu => Or.inl hu) (by simp) rfl
  | @completeJob jobId employer now j we ww worker hj hrole hemployer hstatus hworker hwe hww hcols =>
    exact .moved j _ hj.row rfl (.complete now hstatus) (fun u hu => Or.inl hu) (by simp [hworker]) rfl
  | @cancelJob jobId user reason now j w hj hcaller hopen hw hcols =>
    exact .moved j _ hj.row rfl (.cancel reason now hopen) (fun u hu => Or.inl hu) (by simp) rfl
  | initiateDeposit hlimits hw hcols hfresh hp => exact .same rfl
  | confirmDeposit hid hr hstatus hw hlimits hcols => exact .same rfl

theorem Step.users (h : Step E db op db') : db'.users = db.users := by
  cases h <;> rfl

theorem Step.wallets (h : Step E db op db') (u : Pk) : (db'.wallets.find u).isSome = (db.wallets.find u).isSome := by
  cases h with
  | completeJob hj hrole hemployer hstatus hworker hwe hww hcols =>
    simp only [Table.isSome_find_update]
  | createJob hrole hprice huser hfresh hw hcover hcols => exact Table.isSome_find_update ..
  | cancelJob hj hcaller hopen hw hcols => exact Table.isSome_find_update ..
  | confirmDeposit hid hr hstatus hw hlimits hcols => exact Table.isSome_find_update ..
  | _ => rfl

/-- **No job disappears**: after a step its row is as before, or has moved. -/
theorem Step.job_kept (h : Step E db op db') {i : Pk} {j : Job} (hj : db.jobs.find i = some j) :
    ∃ j', db'.jobs.find i = some j' ∧ (j' = j ∨ j.Move j') := by
  cases h.jobs with
  | same h => exact ⟨j, by rw [h]; exact hj, Or.inl rfl⟩
  | posted id employer data now hfresh huser h =>
    refine ⟨j, ?_, Or.inl rfl⟩
    rw [h, Table.find_insert]
    split_ifs
    · rw [hj, Option.getD_some]
    · exact hj
  | moved k f hk hid hmove hworker hassigned h =>
    by_cases hki : k.id = i
    · subst hki
      rw [hk] at hj; cases hj
      exact ⟨f j, by rw [h]; exact Table.find_update_self hk hid, Or.inr hmove⟩
    · exact ⟨j, by rw [h, Table.find_update_ne hki]; exact hj, Or.inl rfl⟩

/-- where a row of the new state comes from -/
theorem Step.job_from (h : Step E db op db') {j' : Job} (hj : j' ∈ db'.jobs.rows) :
    j' ∈ db.jobs.rows ∨
    (∃ id employer data now, j' = newJob id employer data now ∧ (db.users.find employer.id).isSome) ∨
    ∃ j ∈ db.jobs.rows, j.Move j' ∧ (∀ u, j'.worker = some u → j.worker = some u ∨ (db.users.find u).isSome) ∧
      (j'.status = .completed → j'.worker ≠ none) := by
  cases h.jobs with
  | same h => exact Or.inl (h ▸ hj)
  | posted id employer data now hfresh huser h =>
    rw [h, Table.mem_insert (r := newJob id employer data now) hfresh] at hj
    rcases hj with hj | rfl
    · exact Or.inl hj
    · exact Or.inr (Or.inl ⟨id, employer, data, now, rfl, huser⟩)
  | moved k f hk hid hmove hworker hassigned h =>
    rw [h, Table.mem_update hk hid] at hj
    rcases hj with rfl | ⟨hj, -⟩
    · exact Or.inr (Or.inr ⟨k, Table.mem_of_find hk, hmove, hworker, hassigned⟩)
    · exact Or.inl hj

end Steps

/-! ## What every row keeps -/

structure Job.Ok (users : Table User) (j : Job) : Prop where
  price : 100 ≤ j.price
  employer : (users.find j.employer).isSome
  worker : ∀ u, j.worker = some u → (users.find u).isSome ∧ u ≠ j.employer
  created : j.status = .created → j.worker = none
  assigned : j.status = .accepted ∨ j.status = .inProgress ∨ j.status = .completed → j.worker ≠ none

theorem newJob_ok {users : Table User} {id : Pk} {employer : User} {data : JobData} {now : Time}
    (h : (users.find employer.id).isSome) : (newJob id employer data now).Ok users where
  price := data.price_min
  employer := h
  worker := fun u hu => by cases hu
  created := fun _ => rfl
  assigned := fun hs => by simp [newJob] at hs

theorem Job.Move.ok {users : Table User} {j j' : Job} (h : j.Ok users) (hm : j.Move j')
    (hw : ∀ u, j'.worker = some u → j.worker = some u ∨ (users.find u).isSome)
    (ha : j'.status = .completed → j'.worker ≠ none) : j'.Ok users where
  price := by rw [hm.same.2.2.1]; exact h.price
  employer := by rw [hm.same.2.1]; exact h.employer
  worker := fun u hu => by
    rw [hm.same.2.1]
    rcases hw u hu with hold | hex
    · exact h.worker u hold
    · refine ⟨hex, ?_⟩
      cases hm with
      | accept v now hs hown => cases hu; exact hown
      | _ => exact (h.worker u hu).2
  created := fun hs => absurd hs hm.left_created
  assigned := fun hs => by
    cases hm with
    | accept v now hs' hown => simp
    | start now hs' => exact h.assigned (Or.inl hs')
    | complete now hs' => exact ha rfl
    | cancel reason now hs' => simp at hs

/-- the foreign keys: every user has a wallet, every job is well formed, every request has a wallet -/
structure Linked (db : DB) : Prop where
  wallets : ∀ u, (db.wallets.find u).isSome = (db.users.find u).isSome
  jobs : ∀ j ∈ db.jobs.rows, j.Ok db.users
  requests : ∀ r ∈ db.requests.rows, (db.wallets.find r.wallet).isSome

theorem find_init_wallets (users : Table User) (u : Pk) :
    (init users).wallets.find u = (users.find u).map fun x => ⟨x.id, 0, 0, 0, 0⟩ := by
  simp only [Table.find, init, List.find?_map]
  rfl

theorem linked_init (users : Table User) : Linked (init users) where
  wallets := fun u => by rw [find_init_wallets, Option.isSome_map]; rfl
  jobs := fun j hj => by simp [init, Table.empty] at hj
  requests := fun r hr => by simp [init, Table.empty] at hr

/-- rows of the table of requests keep their wallet -/
theorem Step.request_from {E : Env} {db db' : DB} {op : Op} (h : Step E db op db') {r' : PaymentRequest}
    (hr : r' ∈ db'.requests.rows) :
    (∃ r ∈ db.requests.rows, r'.wallet = r.wallet) ∨ (db.wallets.find r'.wallet).isSome := by
  cases h with
  | @initiateDeposit id user amount providerName uuidHex p hlimits hw hcols hfresh hp =>
    rw [Table.mem_insert (r := newRequest E id user.id amount providerName uuidHex p) hfresh] at hr
    rcases hr with hr | rfl
    · exact Or.inl ⟨r', hr, rfl⟩
    · exact Or.inr hw
  | @confirmDeposit v externalId r w hid hfind hstatus hw hlimits hcols =>
    rw [Table.mem_update hfind rfl] at hr
    rcases hr with rfl | ⟨hr, -⟩
    · exact Or.inl ⟨r, Table.mem_of_find hfind, rfl⟩
    · exact Or.inl ⟨r', hr, rfl⟩
  | _ => exact Or.inl ⟨r', hr, rfl⟩

theorem linked_step {E : Env} {db db' : DB} {op : Op} (h : Linked db) (hs : Step E db op db') : Linked db' where
  wallets := fun u => by rw [hs.wallets, hs.users]; exact h.wallets u
  jobs := fun j' hj => by
    rw [hs.users]
    rcases hs.job_from hj with hj | ⟨id, employer, data, now, rfl, huser⟩ | ⟨j, hj, hm, hw, ha⟩
    · exact h.jobs j' hj
    · exact newJob_ok huser
    · exact hm.ok (h.jobs j hj) hw ha
  requests := fun r' hr => by
    rw [hs.wallets]
    rcases hs.request_from hr with ⟨r, hr, e⟩ | hw
    · rw [e]; exact h.requests r hr
    · exact hw

theorem linked_run (E : Env) (users : Table User) (ops : List Op) : Linked (run E (init users) ops) :=
  run_inv (fun _ _ _ h hs => linked_step h hs) (linked_init users) ops

end GigMarketplace
