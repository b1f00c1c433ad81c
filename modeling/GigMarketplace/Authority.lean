/-
Who may change what, over the whole site (`SignIn.lean`): in any interleaving of requests, every change of the jobs and
the money is one that a request was granted when it began, or somebody joins.

`Step` says what an operation does for the user object it gets, and takes its role as the object has it. Here the user
object comes from the token of a request, so its role is the one of the row, at any time (`Op.Genuine`): what the
statuses of `User` are meant to separate is separated in the books as well.

Results:
- `changes_authorised`: every change of the database is granted;
- `Step.wallet_change`: what an operation does to a wallet;
- `money_spent_by_owner`: a balance falls only by its owner's posting a job, and what a user has in all only by its
  owner's completing one;
- `sides_of_the_market`: employers post and pay, workers accept and earn; `my_jobs` lists all the jobs of a user.
-/
import GigMarketplace.Sessions

namespace GigMarketplace

open GigMarketplace.Core

/-! ## Changes -/

section Changes

variable {X : AuthEnv} {accounts : Table Account} {otp : OtpSite} {evs : List AuthEvent} {e : AuthEntry}

/-- the operation that the request did, and what it was granted -/
structure Served (X : AuthEnv) (e : AuthEntry) (r : MarketRequest) (op : Op) : Prop where
  request : e.op = .market r
  granted : r.Grants X.base e.origin.site op
  genuine : op.Genuine e.before.site
  done : Step X.base e.before.site.db op e.after.site.db

/-- the user who has joined, and the code that was accepted -/
structure JoinedBy (X : AuthEnv) (e : AuthEntry) (id : Pk) (phone role : String) : Prop where
  request : ∃ request pick code, e.op = .verifyOtp request pick ∧
    VerifyOTPSerializer.validate X.rest request.data = some (phone, code)
  code : ∃ k, UsedFor e.after.otp k phone
  fresh : e.before.site.accounts.find id = none
  done : e.after.site.db = joined e.before.site.db id role

theorem grants_market {t₀ : AuthSite} {o : AuthOp} {op : Op} (h : o.Grants X t₀ op) :
    ∃ r, o = .market r ∧ r.Grants X.base t₀.site op := by
  cases o with
  | market r => exact ⟨r, rfl, h⟩
  | sendOtp data reply id => cases h
  | verifyOtp request pick => cases h
  | edit op hedit => cases h

theorem joins_verify {o : AuthOp} {phone : String} (h : o.Joins X phone) :
    ∃ request pick code, o = .verifyOtp request pick ∧
      VerifyOTPSerializer.validate X.rest request.data = some (phone, code) := by
  cases o with
  | verifyOtp request pick =>
    obtain ⟨code, hcode⟩ := h
    exact ⟨request, pick, code, rfl, hcode⟩
  | sendOtp data reply id => cases h
  | edit op hedit => cases h
  | market r => cases h

/-- what a statement of a run does to the database -/
theorem change_of_run (hphones : DistinctPhones accounts) (hseq : SequenceOnce otp evs)
    (he : e ∈ (authRun X accounts otp evs).trace) :
    e.after.site.db = e.before.site.db ∨ (∃ r op, Served X e r op) ∨ ∃ id phone role, JoinedBy X e id phone role := by
  obtain ⟨-, htrace, -⟩ := auth_run (X := X) hphones hseq
  obtain ⟨⟨hbefore, hafter⟩, hstep, -⟩ := htrace e he
  cases hstep.site with
  | same hpeople hdb => exact Or.inl hdb
  | served op hmay hgenuine hpeople hdone =>
    obtain ⟨r, hop, hgranted⟩ := grants_market hmay
    exact Or.inr (Or.inl ⟨r, op, hop, hgranted, hgenuine, hdone⟩)
  | joins id phone role now hphone hfree hnew h =>
    refine Or.inr (Or.inr ⟨id, phone, role, joins_verify hphone, ?_, hnew, by rw [h]⟩)
    -- a user who was there at first would have been there before this statement
    have hthere : e.after.site.identity id = some (phone, role) := by
      rw [h]
      exact (identity_insert hnew _ id).trans (if_pos rfl)
    rcases hafter.verified id _ hthere with hold | hused
    · have hfound := hbefore.kept _ _ hold
      rw [identity_none.2 hnew] at hfound
      cases hfound
    · exact hused

end Changes

/-- **Every change is authorised.** In any interleaving of requests, a statement that changes the jobs, the wallets, the
payment requests or the ledger is the transaction of a request that was granted this operation on the state that the
request began on, and the role the user goes by is the one of the row; or it is the INSERT of a user who has had a code
accepted. -/
theorem changes_authorised (X : AuthEnv) (accounts : Table Account) (hphones : DistinctPhones accounts) (otp : OtpSite)
    (evs : List AuthEvent) (hseq : SequenceOnce otp evs) {e : AuthEntry} (he : e ∈ (authRun X accounts otp evs).trace)
    (hchange : e.after.site.db ≠ e.before.site.db) :
    (∃ r op, Served X e r op) ∨ ∃ id phone role, JoinedBy X e id phone role :=
  (change_of_run hphones hseq he).resolve_left hchange

/-- the entry that has added a job -/
def postedEntry (e : AuthEntry) : Bool := e.before.site.db.jobs.rows.length < e.after.site.db.jobs.rows.length

theorem demoDay_posted : ∃ e ∈ (authRun demoAuth demoAccounts demoUnsent demoDay).trace, postedEntry e = true := by
  have hposted : ((authRun demoAuth demoAccounts demoUnsent demoDay).trace.any postedEntry) = true := by
    decide +kernel
  exact List.any_eq_true.1 hposted

theorem changes_authorised_demo :
    ∃ e ∈ (authRun demoAuth demoAccounts demoUnsent demoDay).trace,
      (∃ r op, Served demoAuth e r op) ∨ ∃ id phone role, JoinedBy demoAuth e id phone role := by
  obtain ⟨e, he, hposted⟩ := demoDay_posted
  refine ⟨e, he, changes_authorised demoAuth demoAccounts (by unfold DistinctPhones; decide) demoUnsent demoDay
    (by unfold SequenceOnce; decide) he fun hsame => ?_⟩
  have hless := of_decide_eq_true hposted
  rw [hsame] at hless
  exact lt_irrefl _ hless

/-! ## Money -/

/-- what an operation does to a user's wallet -/
inductive WalletChange (E : Env) (db : DB) (op : Op) (w w' : Wallet) : Prop where
  /-- nothing is taken from it -/
  | gained (hbalance : w.balance ≤ w'.balance) (htotal : w.balance + w.heldBalance ≤ w'.balance + w'.heldBalance)
  | posted (id : Pk) (employer : User) (data : JobData) (now : Time) (hop : op = .createJob id employer data now)
      (huser : employer.id = w.user) (h : w' = { w with
        balance := w.balance - data.price
        heldBalance := w.heldBalance + data.price
        totalSpent := w.totalSpent + data.price })
  | paid (jobId : String) (employer : User) (now : Time) (j : Job) (hop : op = .completeJob jobId employer now)
      (hj : FetchedOuter E db jobId j) (hstatus : j.status = .inProgress) (hemployer : j.employer = employer.id)
      (huser : employer.id = w.user) (h : w' = { w with heldBalance := w.heldBalance - j.price })

section Wallets

variable {E : Env} {db db' : DB} {op : Op} {u : Pk} {w w' : Wallet}

theorem walletChange_same (h : w' = w) : WalletChange E db op w w' := by
  rw [h]
  exact .gained le_rfl le_rfl

/-- an update of one wallet, seen from another or the same -/
theorem find_walletUpdate {v : Pk} {f : Wallet → Wallet} {ws : Table Wallet} (hw : ws.find u = some w)
    (hf : (f w).user = w.user) (hw' : (ws.update v f).find u = some w') : (v = u ∧ w' = f w) ∨ w' = w := by
  by_cases hv : v = u
  · subst hv
    rw [Table.find_update_self hw hf] at hw'
    cases hw'
    exact Or.inl ⟨rfl, rfl⟩
  · rw [Table.find_update_ne hv, hw] at hw'
    cases hw'
    exact Or.inr rfl

/-- **What an operation does to a wallet.** -/
theorem Step.wallet_change (hlinked : Linked db) (h : Step E db op db') (hw : db.wallets.find u = some w)
    (hw' : db'.wallets.find u = some w') : WalletChange E db op w w' := by
  have hu : w.user = u := Table.pk_of_find hw
  cases h with
  | @createJob id employer data now we hrole hprice huser hfresh hwe hcover hcols =>
    rcases find_walletUpdate hw rfl hw' with ⟨hcaller, h⟩ | h
    · rw [hcaller, hw] at hwe
      cases hwe
      exact .posted id employer data now rfl (hcaller.trans hu.symm) h
    · exact walletChange_same h
  | @completeJob jobId employer now j we ww worker hj hrole hemployer hstatus hworker hwe hww hcols =>
    have hother : worker ≠ j.employer := ((hlinked.jobs j (Table.mem_of_find hj.row)).worker worker hworker).2
    obtain ⟨w₁, hw₁⟩ := Option.isSome_iff_exists.1
      (show ((db.wallets.update j.employer fun r => { r with heldBalance := we.heldBalance - j.price }).find u).isSome by
        rw [Table.isSome_find_update, hw]
        rfl)
    rcases find_walletUpdate hw rfl hw₁ with ⟨hpays, h₁⟩ | h₁
    · -- the employer's wallet is not the worker's
      rcases find_walletUpdate hw₁ rfl hw' with ⟨hearns, -⟩ | h
      · exact absurd (hearns.trans hpays.symm) hother
      · rw [hpays, hw] at hwe
        cases hwe
        refine .paid jobId employer now j rfl hj hstatus hemployer ?_ (h.trans h₁)
        rw [← hemployer, hpays, hu]
    · subst h₁
      rcases find_walletUpdate hw₁ rfl hw' with ⟨hearns, h⟩ | h
      · rw [hearns, hw] at hww
        cases hww
        have hpayout := hcols.payout.1
        rw [h]
        refine .gained ?_ ?_
        · dsimp only
          omega
        · dsimp only
          omega
      · exact walletChange_same h
  | @cancelJob jobId user reason now j we hj hcaller hopen hwe hcols =>
    rcases find_walletUpdate hw rfl hw' with ⟨hrefunded, h⟩ | h
    · rw [hrefunded, hw] at hwe
      cases hwe
      have hamount := hcols.amount.1
      rw [h]
      refine .gained ?_ ?_
      · dsimp only
        omega
      · dsimp only
        omega
    · exact walletChange_same h
  | @confirmDeposit v externalId r we hid hr hstatus hwe hlimits hcols =>
    rcases find_walletUpdate hw rfl hw' with ⟨hcredited, h⟩ | h
    · rw [hcredited, hw] at hwe
      cases hwe
      have hamount := hcols.1.1
      rw [h]
      refine .gained ?_ ?_
      · dsimp only
        omega
      · dsimp only
        omega
    · exact walletChange_same h
  | acceptJob hj hrole hstatus hown huser =>
    rw [hw] at hw'
    exact walletChange_same (Option.some.inj hw').symm
  | startJob hj hworker hstatus =>
    rw [hw] at hw'
    exact walletChange_same (Option.some.inj hw').symm
  | initiateDeposit hlimits hwallet hcols hfresh hp =>
    rw [hw] at hw'
    exact walletChange_same (Option.some.inj hw').symm

end Wallets

section Spending

variable {E : Env} {s₀ : Site} {r : MarketRequest} {user : Account} {action : Action} {now now' : Time}
  {hjob : action.isJob = true} {employer : User}

theorem cancelService_op {pk : String} {data : Json} {op : Op}
    (hop : Action.cancelService user now pk data = .ok op) : ∃ reason, op = .cancelJob pk user.toUser reason now := by
  unfold Action.cancelService at hop
  split at hop
  · cases hop
  · rename_i reason hreason
    cases hop
    exact ⟨reason, rfl⟩

/-- a job is created by `create` only -/
theorem service_createJob {id : Pk} {data : JobData}
    (hop : action.service user now hjob = .ok (.createJob id employer data now')) :
    action = .create id (some data) ∧ employer = user.toUser ∧ user.toUser.isEmployer = true := by
  cases action with
  | create i d =>
    simp only [Action.service] at hop
    split_ifs at hop with hrole
    split at hop
    · cases hop
    · cases hop
      exact ⟨rfl, rfl, hrole⟩
  | accept pk => cases hop
  | start pk => cases hop
  | complete pk => cases hop
  | cancel pk data =>
    obtain ⟨reason, h⟩ := cancelService_op hop
    cases h
  | destroy pk data =>
    obtain ⟨reason, h⟩ := cancelService_op hop
    cases h
  | sendMessage roomId data => cases hjob

/-- and completed by `complete` -/
theorem service_completeJob {jobId : String}
    (hop : action.service user now hjob = .ok (.completeJob jobId employer now')) :
    action = .complete jobId ∧ employer = user.toUser := by
  cases action with
  | create i d =>
    simp only [Action.service] at hop
    split_ifs at hop
    split at hop
    · cases hop
    · cases hop
  | accept pk => cases hop
  | start pk => cases hop
  | complete pk =>
    cases hop
    exact ⟨rfl, rfl⟩
  | cancel pk data =>
    obtain ⟨reason, h⟩ := cancelService_op hop
    cases h
  | destroy pk data =>
    obtain ⟨reason, h⟩ := cancelService_op hop
    cases h
  | sendMessage roomId data => cases hjob

/-- the user of a request that posts a job -/
structure Posts (s₀ : Site) (o : AuthOp) (u : Pk) (data : JobData) : Prop where
  request : ∃ r id, o = .market (.job r) ∧ r.user = u ∧ r.action = .create id (some data)
  user : ∃ user, JWTAuthentication.authenticate s₀.accounts u = .ok user ∧ user.isActive = true ∧
    user.isBlocked = false ∧ user.role = UserRole.employer.value

/-- the user of a request that completes a job -/
structure Completes (s₀ : Site) (o : AuthOp) (u : Pk) (jobId : String) : Prop where
  request : ∃ r, o = .market (.job r) ∧ r.user = u ∧ r.action = .complete jobId
  user : ∃ user, JWTAuthentication.authenticate s₀.accounts u = .ok user ∧ user.isActive = true ∧
    user.role = UserRole.employer.value

theorem posts_of_grants {id : Pk} {data : JobData} (h : r.Grants E s₀ (.createJob id employer data now)) :
    Posts s₀ (.market r) employer.id data := by
  cases h with
  | @job jr user op huser hallowed hop =>
    obtain ⟨haction, rfl, hrole⟩ := service_createJob hop
    obtain ⟨hid, hfind, hactive⟩ := authenticate_ok huser
    have hsame : user.toUser.id = jr.user := hid
    rw [haction] at hallowed
    have hpermission := checkPermissions_ok.1 hallowed .isActiveUser
      (List.mem_cons_of_mem _ List.mem_cons_self)
    simp only [Permission.hasPermission, decide_eq_true_eq] at hpermission
    rw [hsame]
    exact ⟨⟨jr, id, rfl, rfl, haction⟩, user, huser, hactive, Bool.eq_false_iff.2 hpermission.2,
      of_decide_eq_true hrole⟩

theorem completes_of_grants {jobId : String} (h : r.Grants E s₀ (.completeJob jobId employer now)) :
    Completes s₀ (.market r) employer.id jobId := by
  cases h with
  | @job jr user op huser hallowed hop =>
    obtain ⟨haction, rfl⟩ := service_completeJob hop
    obtain ⟨hid, hfind, hactive⟩ := authenticate_ok huser
    have hsame : user.toUser.id = jr.user := hid
    rw [haction] at hallowed
    have hpermission := checkPermissions_ok.1 hallowed .isEmployer
      (List.mem_cons_of_mem _ List.mem_cons_self)
    rw [hsame]
    exact ⟨⟨jr, rfl, rfl, haction⟩, user, huser, hactive, of_decide_eq_true hpermission⟩

end Spending

/-- **Money is spent by its owner.** In any interleaving of requests, the balance of a user falls only when a request of
this very user posts a job, by the job's price, which is held from then on; and what the user has in all, in the balance
and held, falls only when a request of this user completes a job of the user's that is in progress, by its price. The
user was an active employer when the request began, and not blocked when the job was posted. -/
theorem money_spent_by_owner (X : AuthEnv) (accounts : Table Account) (hphones : DistinctPhones accounts)
    (otp : OtpSite) (evs : List AuthEvent) (hseq : SequenceOnce otp evs) {e : AuthEntry}
    (he : e ∈ (authRun X accounts otp evs).trace) {u : Pk} {w w' : Wallet}
    (hw : e.before.site.db.wallets.find u = some w) (hw' : e.after.site.db.wallets.find u = some w') :
    (w'.balance < w.balance → ∃ data, Posts e.origin.site e.op u data ∧ w' = { w with
      balance := w.balance - data.price
      heldBalance := w.heldBalance + data.price
      totalSpent := w.totalSpent + data.price }) ∧
    (w'.balance + w'.heldBalance < w.balance + w.heldBalance →
      ∃ jobId j, Completes e.origin.site e.op u jobId ∧ FetchedOuter X.base e.before.site.db jobId j ∧ j.employer = u ∧
        j.status = .inProgress ∧ w' = { w with heldBalance := w.heldBalance - j.price }) := by
  have hu : w.user = u := Table.pk_of_find hw
  have hsite : SiteLaw X.base e.before.site := ((auth_run (X := X) hphones hseq).2.1 e he).1.1.site
  have hsame : w' = w → (w'.balance < w.balance → False) ∧
      (w'.balance + w'.heldBalance < w.balance + w.heldBalance → False) := by
    rintro rfl
    exact ⟨lt_irrefl _, lt_irrefl _⟩
  rcases change_of_run hphones hseq he with hdb | ⟨r, op, hserved⟩ | ⟨id, phone, role, hjoined⟩
  · rw [hdb, hw] at hw'
    obtain ⟨h1, h2⟩ := hsame (Option.some.inj hw').symm
    exact ⟨fun h => (h1 h).elim, fun h => (h2 h).elim⟩
  · have hgranted := hserved.granted
    rw [hserved.request]
    cases hserved.done.wallet_change hsite.market.inv.linked hw hw' with
    | gained hbalance htotal =>
      exact ⟨fun h => absurd h (not_lt.2 hbalance), fun h => absurd h (not_lt.2 htotal)⟩
    | posted id employer data now hop huser h =>
      subst hop
      have hposts := posts_of_grants hgranted
      rw [huser, hu] at hposts
      refine ⟨fun _ => ⟨data, hposts, h⟩, fun hless => ?_⟩
      rw [h] at hless
      dsimp only at hless
      omega
    | paid jobId employer now j hop hj hstatus hemployer huser h =>
      subst hop
      have hcompletes := completes_of_grants hgranted
      rw [huser, hu] at hcompletes
      refine ⟨fun hless => ?_, fun _ => ⟨jobId, j, hcompletes, hj, hemployer.trans (huser.trans hu), hstatus, h⟩⟩
      rw [h] at hless
      exact absurd hless (lt_irrefl _)
  · rw [hjoined.done] at hw'
    have hnew : e.before.site.db.wallets.find id = none := by
      apply hsite.market.inv.linked.wallet_none
      rw [hsite.users, identity_none.2 hjoined.fresh]
      rfl
    rcases find_joined hnew hw' with ⟨rfl, -⟩ | hold
    · rw [hnew] at hw
      cases hw
    · rw [hw] at hold
      obtain ⟨h1, h2⟩ := hsame (Option.some.inj hold).symm
      exact ⟨fun h => (h1 h).elim, fun h => (h2 h).elim⟩

/-- the first user's balance falls -/
def spentEntry (e : AuthEntry) : Bool :=
  match e.before.site.db.wallets.find 1, e.after.site.db.wallets.find 1 with
  | some w, some w' => w'.balance < w.balance
  | _, _ => false

theorem money_spent_by_owner_demo :
    ∃ e ∈ (authRun demoAuth demoAccounts demoUnsent demoDay).trace, ∃ data, Posts e.origin.site e.op 1 data := by
  have hspent : ((authRun demoAuth demoAccounts demoUnsent demoDay).trace.any spentEntry) = true := by decide +kernel
  obtain ⟨e, he, hless⟩ := List.any_eq_true.1 hspent
  unfold spentEntry at hless
  split at hless
  · rename_i w w' hw hw'
    obtain ⟨data, hposts, -⟩ := (money_spent_by_owner demoAuth demoAccounts (by unfold DistinctPhones; decide)
      demoUnsent demoDay (by unfold SequenceOnce; decide) he hw hw').1 (of_decide_eq_true hless)
    exact ⟨e, he, data, hposts⟩
  · cases hless

/-! ## Sides -/

/-- the jobs in which the user has a part, newest first -/
def jobsOf (user : Pk) (s : Site) : List Job :=
  sortOn Job.createdAt true (s.db.jobs.rows.filter fun j => j.employer = user ∨ j.worker = some user)

section Sides

variable {E : Env} {s s' : Site} {id : Pk} {role : String}

theorem mem_jobsOf {j : Job} : j ∈ jobsOf id s ↔ j ∈ s.db.jobs.rows ∧ (j.employer = id ∨ j.worker = some id) := by
  rw [jobsOf, mem_sortOn, List.mem_filter, decide_eq_true_eq]

theorem hasRole_unique {role' : String} (h : s.HasRole id role) (h' : s.HasRole id role') : role = role' := by
  obtain ⟨phone, hphone⟩ := h
  obtain ⟨phone', hphone'⟩ := h'
  rw [hphone] at hphone'
  exact congrArg Prod.snd (Option.some.inj hphone')

theorem SiteLaw.employer_role (hs : SiteLaw E s) (h : s.HasRole id role) {j : Job} (hj : j ∈ s.db.jobs.rows)
    (hemployer : j.employer = id) : role = UserRole.employer.value := by
  have hrole := hs.employers _ j (Table.find_of_mem hj)
  rw [hemployer] at hrole
  exact hasRole_unique h hrole

theorem SiteLaw.worker_role (hs : SiteLaw E s) (h : s.HasRole id role) {j : Job} (hj : j ∈ s.db.jobs.rows)
    (hworker : j.worker = some id) : role = UserRole.worker.value :=
  hasRole_unique h (hs.workers _ j id (Table.find_of_mem hj) hworker)

/-- a sum over the jobs of one side, for a user of the other one -/
theorem sum_side {p : Job → Prop} [DecidablePred p] {g : Job → ℤ} (h : ∀ j ∈ s.db.jobs.rows, ¬ p j) :
    (s.db.jobs.sum fun j => if p j then g j else 0) = 0 := by
  apply List.sum_eq_zero
  intro x hx
  obtain ⟨j, hj, rfl⟩ := List.mem_map.1 hx
  exact if_neg (h j hj)

theorem walletOf_sides (hs : SiteLaw E s) (h : s.HasRole id role) :
    (role ≠ UserRole.employer.value → (walletOf E s.db id).heldBalance = 0 ∧ (walletOf E s.db id).totalSpent = 0) ∧
      (role ≠ UserRole.worker.value → (walletOf E s.db id).totalEarned = 0) := by
  refine ⟨fun hrole => ⟨?_, ?_⟩, fun hrole => ?_⟩
  · exact sum_side fun j hj hown => hrole (hs.employer_role h hj hown.1)
  · exact sum_side fun j hj hown => hrole (hs.employer_role h hj hown.1)
  · exact sum_side fun j hj hown => hrole (hs.worker_role h hj hown.1)

/-- **`my_jobs` lists them all**, although it looks at one side only. -/
theorem myJobsQuery_eq (hs : SiteLaw E s) {user : Account} (h : s.HasRole user.id user.role) :
    JobViewSet.myJobsQuery user none s = jobsOf user.id s := by
  unfold JobViewSet.myJobsQuery jobsOf
  apply congrArg (sortOn Job.createdAt true)
  apply List.filter_congr
  intro j hj
  by_cases hemployer : user.toUser.isEmployer = true
  · rw [if_pos hemployer]
    refine decide_eq_decide.2 ⟨Or.inl, fun hparty => hparty.resolve_right fun hworker => ?_⟩
    have hrole := (of_decide_eq_true hemployer).symm.trans (hs.worker_role h hj hworker)
    exact absurd hrole (by decide)
  · rw [if_neg hemployer]
    refine decide_eq_decide.2 ⟨Or.inr, fun hparty => hparty.resolve_left fun hown => hemployer ?_⟩
    exact decide_eq_true (hs.employer_role h hj hown)

end Sides

/-- **Two sides.** After any requests, whoever posts jobs is an employer and whoever works on one a worker, by the role
of the row: nobody else has money held or spent, or earned. And `my_jobs`, which asks for the jobs of one side, lists
all in which the user has a part. -/
theorem sides_of_the_market (X : AuthEnv) (accounts : Table Account) (hphones : DistinctPhones accounts)
    (otp : OtpSite) (evs : List AuthEvent) (hseq : SequenceOnce otp evs) {s : Site}
    (hs : s = (authRun X accounts otp evs).mem.site) {a : Account} (ha : a ∈ s.accounts.rows) :
    (∀ j ∈ s.db.jobs.rows, (j.employer = a.id → a.role = UserRole.employer.value) ∧
      (j.worker = some a.id → a.role = UserRole.worker.value)) ∧
    (∃ w, s.db.wallets.find a.id = some w ∧
      (a.role ≠ UserRole.employer.value → w.heldBalance = 0 ∧ w.totalSpent = 0) ∧
      (a.role ≠ UserRole.worker.value → w.totalEarned = 0)) ∧
    ∀ j, j ∈ JobViewSet.myJobsQuery a none s ↔ j ∈ s.db.jobs.rows ∧ (j.employer = a.id ∨ j.worker = some a.id) := by
  subst hs
  have hlaw := (auth_run (X := X) hphones hseq).1.site
  have hrole : (authRun X accounts otp evs).mem.site.HasRole a.id a.role :=
    ⟨_, identity_of_find (Table.find_of_mem ha)⟩
  refine ⟨fun j hj => ⟨hlaw.employer_role hrole hj, hlaw.worker_role hrole hj⟩, ?_, fun j => ?_⟩
  · exact ⟨_, hlaw.wallet_eq hrole, walletOf_sides hlaw hrole⟩
  · rw [myJobsQuery_eq hlaw hrole, mem_jobsOf]

/-- the worker who has joined and been paid -/
theorem sides_of_the_market_demo :
    (∀ j ∈ (authRun demoAuth demoAccounts demoUnsent demoDay).mem.site.db.jobs.rows, j.employer ≠ 3) ∧
      (∃ w, (authRun demoAuth demoAccounts demoUnsent demoDay).mem.site.db.wallets.find 3 = some w ∧
        w.heldBalance = 0 ∧ w.totalSpent = 0) ∧
      ∃ j ∈ JobViewSet.myJobsQuery (demoJoined 101) none
        (authRun demoAuth demoAccounts demoUnsent demoDay).mem.site, j.worker = some 3 := by
  obtain ⟨hsides, ⟨w, hw, hspent, -⟩, hmine⟩ := sides_of_the_market demoAuth demoAccounts
    (by unfold DistinctPhones; decide) demoUnsent demoDay (by unfold SequenceOnce; decide) rfl (a := demoJoined 101)
    (by decide +kernel)
  have hworks : ((authRun demoAuth demoAccounts demoUnsent demoDay).mem.site.db.jobs.rows.any fun j =>
      j.worker = some 3) = true := by decide +kernel
  obtain ⟨j, hj, hworker⟩ := List.any_eq_true.1 hworks
  refine ⟨fun j hj hemployer => ?_, ⟨w, hw, hspent (by decide)⟩, j, (hmine j).2 ⟨hj, ?_⟩, of_decide_eq_true hworker⟩
  · exact absurd ((hsides j hj).1 hemployer) (by decide)
  · exact Or.inr (of_decide_eq_true hworker)

end GigMarketplace
