/-
The requests of the market as calls: the actions of JobViewSet with its two lists, InitiateDepositView, WalletView and
the two webhooks.

`Permissions.lean` takes a request as one step. Here a request first authenticates its user and asks the permission
classes, in one statement, and then runs the view, whose transaction is a statement of its own: in between the user may
be blocked, and the job taken by somebody else. So what a request may do is decided on the state that it begins on
(`MarketRequest.Grants`), and done on a later one.

Left out: the chat room that the signal of a job adds (`ChatSignals.lean`), edits of the categories, which no request
makes, the throttles and the rendering.

Results:
- `admitted_initial`: what the first statement has found out about the user stays so, but for `is_blocked` and
  `is_active`;
- `assures_market`: a request does the operation that it was granted when it began, or nothing; the wallet of a user is
  always there when WalletView looks for it.
-/
import GigMarketplace.PagedReads
import GigMarketplace.People
import GigMarketplace.Permissions
import GigMarketplace.Providers

namespace GigMarketplace

open GigMarketplace.Core

/-! ## Fields -/

/-- `ChoiceField(choices)`: the text of the value is a choice, and only a string's can be -/
def choiceField (choices : List String) : Json → Option String
  | .str s => if s ∈ choices then some s else none
  | _ => none

/-- `re.sub(r"\.0*\s*$", "", s)` -/
def dropDecimal (s : String) : String :=
  match s.toList.reverse.dropWhile (· ≠ '.') with
  | [] => s
  | _ :: before =>
    let fraction := (s.toList.reverse.takeWhile (· ≠ '.')).reverse
    if (fraction.dropWhile (· = '0')).all isSpace then String.ofList before.reverse else s

/-- `IntegerField(min_value=minValue)`: the text of a value as `int` reads it, without a decimal point and zeros -/
def integerField (py : Py) (minValue : ℤ) (v : Json) : Option ℤ :=
  let value := match v with
    | .int n => some n
    | .float x => py.int (dropDecimal x.str)
    | .str s => if 1000 < s.length then none else py.int (dropDecimal s)
    | _ => none
  value.filter fun n => minValue ≤ n

/-! ## Views -/

/-- `initial`: JWTAuthentication loads the user of the token, and the permission classes look at the row -/
def APIView.initial (user : Pk) (permissionClasses : List Permission) : Call Account := do
  let user ← Code.query fun s => JWTAuthentication.authenticate s.accounts user
  Code.ofExcept (checkPermissions user permissionClasses)
  return user

/-- an action of JobViewSet -/
def Action.isJob : Action → Bool
  | .sendMessage .. => false
  | _ => true

/-- `cancel`, which `destroy` calls as well -/
def Action.cancelService (user : Account) (now : Time) (pk : String) (data : Json) : Except Failure Op :=
  match CancelJobSerializer.validate data with
  | none => .error .fieldError
  | some reason => .ok (.cancelJob pk user.toUser reason now)

/-- the method of the action, up to the call of JobService -/
def Action.service (user : Account) (now : Time) : (action : Action) → action.isJob = true → Except Failure Op
  | .create id data, _ =>
    if ¬ user.toUser.isEmployer then .error (.exc (.forbidden "Only employers can create jobs."))
    else
      match data with
      | none => .error .fieldError
      | some data => .ok (.createJob id user.toUser data now)
  | .accept pk, _ => .ok (.acceptJob pk user.toUser now)
  | .start pk, _ => .ok (.startJob pk user.toUser now)
  | .complete pk, _ => .ok (.completeJob pk user.toUser now)
  | .cancel pk data, _ => Action.cancelService user now pk data
  | .destroy pk data, _ => Action.cancelService user now pk data

structure JobRequest where
  user : Pk
  action : Action
  now : Time
  job : action.isJob = true

def JobViewSet.dispatch (E : Env) (r : JobRequest) : Call Unit := do
  let user ← APIView.initial r.user r.action.permissionClasses
  let op ← Code.ofExcept (r.action.service user r.now r.job)
  serviceCall E op

/-- `JobStatus.values` -/
def JobStatus.values : List String :=
  [JobStatus.created, .accepted, .inProgress, .completed, .cancelled].map JobStatus.value

/-- the jobs that `my_jobs` lists: an employer's own, and for anybody else those the user works on -/
def JobViewSet.myJobsQuery (user : Account) (status : Option String) (s : Site) : List Job :=
  let mine := s.db.jobs.rows.filter fun j =>
    if user.toUser.isEmployer then j.employer = user.id else j.worker = some user.id
  -- a status that is none is not filtered by
  let found := match status.filter fun v => v ∈ JobStatus.values with
    | none => mine
    | some v => mine.filter fun j => j.status.value = v
  sortOn Job.createdAt true found

def JobViewSet.myJobs (P : PageSettings) (user : Pk) (status : Option String) (q : PageQuery) : Call (Page Job) := do
  let user ← APIView.initial user JobViewSet.permissionClasses
  paginateQueryset P q (JobViewSet.myJobsQuery user status) .exc

/-- what a search needs besides the rows: the slug of a category, the `math` module and the setting -/
structure SearchEnv where
  slug : Pk → String
  math : MathModule ℚ
  defaultSearchRadiusKm : ℤ

/-- the row of a search -/
def Job.listing (slug : Pk → String) (j : Job) : Listing ℚ :=
  ⟨j.id, slug j.category, j.price, j.latitude, j.longitude, j.status, j.createdAt⟩

/-- what a search finds now -/
def available (S : SearchEnv) (f : JobFilter ℚ) (s : Site) : List (FoundJob ℚ) :=
  JobDiscoveryService.getAvailableJobs S.math S.defaultSearchRadiusKm (s.db.jobs.rows.map (Job.listing S.slug)) f

/-- `list`, as a call; `f` are the values of the single fields. A search around a place evaluates the query and returns
a list; any other returns the query, which the paginator counts and slices. -/
def JobViewSet.listPage (S : SearchEnv) (P : PageSettings) (user : Pk) (f : JobFilter ℚ) (q : PageQuery) :
    Call (Page (FoundJob ℚ)) := do
  let _ ← APIView.initial user JobViewSet.permissionClasses
  let f ← Code.ofExcept ((JobFilterSerializer.validate f).mapError fun _ => Failure.fieldError)
  if f.lat.isSome ∧ f.lon.isSome then
    let jobs ← Code.query fun s => .ok (available S f s)
    Code.ofExcept ((StandardResultsPagination.paginate P q jobs).mapError .exc)
  else paginateQueryset P q (available S f) .exc

def InitiateDepositSerializer.validate (py : Py) : Json → Option (ℤ × String)
  | .obj fields => do
    let amount ← (getField fields "amount").bind (integerField py 100)
    let provider ← choiceField ["payme", "click", "mock"] ((getField fields "provider").getD (.str "mock"))
    return (amount, provider)
  | _ => none

/-- `id` is the value of the table's sequence, `uuidHex` what `uuid.uuid4().hex` returned -/
structure DepositRequest where
  user : Pk
  data : Json
  id : Pk
  uuidHex : String

def InitiateDepositView.permissionClasses : List Permission := [.isAuthenticated, .isActiveUser]

def InitiateDepositView.post (E : Env) (r : DepositRequest) : Call Unit := do
  let user ← APIView.initial r.user InitiateDepositView.permissionClasses
  let (amount, provider) ←
    Code.ofExcept ((InitiateDepositSerializer.validate E.py r.data).elim (.error .fieldError) .ok)
  serviceCall E (.initiateDeposit r.id user.toUser amount provider r.uuidHex)

/-- `Wallet.objects.create(user=user)`: there is one wallet for a user -/
def Wallet.create (user : Pk) : Call Wallet :=
  .act fun s =>
    match s.db.wallets.find user with
    | some _ => .error (.exc .databaseError)
    | none =>
      .ok (⟨user, 0, 0, 0, 0⟩, { s with db := { s.db with wallets := s.db.wallets.insert ⟨user, 0, 0, 0, 0⟩ } })

def WalletView.permissionClasses : List Permission := [.isAuthenticated, .isActiveUser]

def WalletView.get (user : Pk) : Call Wallet := do
  let user ← APIView.initial user WalletView.permissionClasses
  let found ← Code.query fun s => .ok (s.db.wallets.find user.id)
  match found with
  | some wallet => return wallet
  | none => Wallet.create user.id

/-- the view of a webhook: `confirm_deposit` is its only statement -/
def Callback.view (E : Env) (cb : Callback) : Call Unit :=
  .act fun s => .ok ((), { s with db := (cb.post E s.db).2 })

/-! ## Requests -/

inductive MarketRequest where
  | job (r : JobRequest)
  | deposit (r : DepositRequest)
  | wallet (user : Pk)
  | myJobs (user : Pk) (status : Option String) (q : PageQuery)
  | list (user : Pk) (f : JobFilter ℚ) (q : PageQuery)
  | callback (cb : Callback)

inductive MarketAnswer where
  | done
  | wallet (w : Wallet)
  | jobs (page : Page Job)
  | found (page : Page (FoundJob ℚ))

def MarketRequest.code (E : Env) (P : PageSettings) (S : SearchEnv) : MarketRequest → Call MarketAnswer
  | .job r => do
    JobViewSet.dispatch E r
    return .done
  | .deposit r => do
    InitiateDepositView.post E r
    return .done
  | .wallet user => do
    let w ← WalletView.get user
    return .wallet w
  | .myJobs user status q => do
    let page ← JobViewSet.myJobs P user status q
    return .jobs page
  | .list user f q => do
    let page ← JobViewSet.listPage S P user f q
    return .found page
  | .callback cb => do
    cb.view E
    return .done

/-! ## What a request is granted -/

/-- the operation that a request which begins at `s₀` may do: its user was active then, the permission classes let the
user in, and the view comes to this call; a callback has verified and names the deposit -/
inductive MarketRequest.Grants (E : Env) (s₀ : Site) : MarketRequest → Op → Prop where
  | job {r : JobRequest} {user : Account} {op : Op}
      (huser : JWTAuthentication.authenticate s₀.accounts r.user = .ok user)
      (hallowed : checkPermissions user r.action.permissionClasses = .ok ())
      (hop : r.action.service user r.now r.job = .ok op) : Grants E s₀ (.job r) op
  | deposit {r : DepositRequest} {user : Account} {amount : ℤ} {provider : String}
      (huser : JWTAuthentication.authenticate s₀.accounts r.user = .ok user)
      (hallowed : checkPermissions user InitiateDepositView.permissionClasses = .ok ())
      (hdata : InitiateDepositSerializer.validate E.py r.data = some (amount, provider)) :
      Grants E s₀ (.deposit r) (.initiateDeposit r.id user.toUser amount provider r.uuidHex)
  | callback {cb : Callback} {v : Json} (hconfirms : cb.Confirms E v) :
      Grants E s₀ (.callback cb) (.confirmDeposit v "")

section Grants

variable {E : Env} {P : PageSettings} {S : SearchEnv} {allowed : String → Prop} {may : Op → Prop} {s s₀ : Site}
  {id : Pk} {user : Account} {classes : List Permission}

theorem authenticate_ok (h : JWTAuthentication.authenticate s.accounts id = .ok user) :
    user.id = id ∧ s.accounts.find id = some user ∧ user.isActive = true := by
  unfold JWTAuthentication.authenticate at h
  split at h
  · cases h
  · rename_i a hfind
    split_ifs at h with hactive
    cases h
    exact ⟨Table.pk_of_find hfind, hfind, hactive⟩

/-- a view calls the service for the user of the request -/
theorem cancelService_caller {now : Time} {pk : String} {data : Json} {op : Op}
    (hop : Action.cancelService user now pk data = .ok op) : op.caller = some user.toUser := by
  unfold Action.cancelService at hop
  split at hop
  · cases hop
  · cases hop
    rfl

theorem service_caller {action : Action} {now : Time} {h : action.isJob = true} {op : Op}
    (hop : action.service user now h = .ok op) : op.caller = some user.toUser := by
  cases action with
  | create id data =>
    simp only [Action.service] at hop
    split_ifs at hop
    split at hop
    · cases hop
    · cases hop
      rfl
  | accept pk =>
    cases hop
    rfl
  | start pk =>
    cases hop
    rfl
  | complete pk =>
    cases hop
    rfl
  | cancel pk data => exact cancelService_caller hop
  | destroy pk data => exact cancelService_caller hop
  | sendMessage roomId data => cases h

/-- what the first statement of a request has found out, at `s₀` -/
structure Admitted (id : Pk) (classes : List Permission) (s₀ : Site) (user : Account) (s : Site) : Prop where
  token : JWTAuthentication.authenticate s₀.accounts id = .ok user
  allowed : checkPermissions user classes = .ok ()
  role : s.HasRole user.id user.role

theorem Admitted.user_id (h : Admitted id classes s₀ user s) : user.id = id := (authenticate_ok h.token).1

/-- **Who has been let in.** -/
theorem admitted_initial (hs : SiteLaw E s) :
    (APIView.initial id classes).AssuresFrom (SiteLaw E) Kept (SiteStep E allowed may) (Admitted id classes s)
      s := by
  apply Code.assuresFrom_query_bind SiteStep.refl hs
  intro user huser
  obtain ⟨rfl, hfind, -⟩ := authenticate_ok huser
  refine Code.assures_bind (P := fun _ s' => checkPermissions user classes = .ok () ∧ s' = s)
    (Code.assures_ofExcept fun _ h => ⟨h, rfl⟩) ?_
  rintro - s' ⟨hallowed, rfl⟩
  exact ⟨huser, hallowed, user.phoneNumber, identity_of_find hfind⟩

/-- the wallet of a user who is there -/
theorem SiteLaw.wallet (hs : SiteLaw E s) {role : String} (h : s.HasRole id role) :
    ∃ w, s.db.wallets.find id = some w := by
  obtain ⟨phone, hphone⟩ := h
  have hsome : (s.db.wallets.find id).isSome := by
    rw [hs.market.inv.linked.wallets, hs.users, hphone]
    rfl
  exact Option.isSome_iff_exists.1 hsome

/-- the wallet that the jobs and the payment requests give a user -/
def walletOf (E : Env) (db : DB) (id : Pk) : Wallet :=
  ⟨id, depositedBy db id + earnedBy E db id - spentBy db id, heldFor db id, earnedBy E db id, spentBy db id⟩

theorem SiteLaw.wallet_eq (hs : SiteLaw E s) {role : String} (h : s.HasRole id role) :
    s.db.wallets.find id = some (walletOf E s.db id) := by
  obtain ⟨w, hw⟩ := hs.wallet h
  rw [hw]
  exact congrArg some (hs.market.inv.wallet hw)

/-- WalletView finds the wallet, and creates none -/
theorem assures_walletView (hs : SiteLaw E s) :
    (WalletView.get id).AssuresFrom (SiteLaw E) Kept (SiteStep E allowed may)
      (fun w s' => s'.db.wallets.find id = some w) s := by
  refine Code.assuresFrom_bind (Kept.refl s) hs (admitted_initial hs) fun user s₁ hadmitted => ?_
  refine Code.assures_bind (P := fun found s' => ∃ w, found = some w ∧ s'.db.wallets.find id = some w) ?_
    fun found s' h => ?_
  · apply Code.assures_query SiteStep.refl
    intro s' found hkept hs' h
    cases h
    obtain ⟨w, hw⟩ := hs'.wallet (hadmitted.role.kept hkept.people)
    refine ⟨w, hw, ?_⟩
    rw [← hadmitted.user_id]
    exact hw
  · obtain ⟨w, rfl, hw⟩ := h
    exact hw

/-- JobViewSet does what the user was granted -/
theorem assures_dispatch (r : JobRequest) (hs : SiteLaw E s) :
    (JobViewSet.dispatch E r).AssuresFrom (SiteLaw E) Kept (SiteStep E allowed ((MarketRequest.job r).Grants E s))
      (fun _ _ => True) s := by
  refine Code.assuresFrom_bind (Kept.refl s) hs (admitted_initial hs) fun user s₁ hadmitted => ?_
  refine Code.assures_bind (P := fun op s' => r.action.service user r.now r.job = .ok op ∧ s' = s₁)
    (Code.assures_ofExcept fun _ h => ⟨h, rfl⟩) ?_
  rintro op s' ⟨hop, rfl⟩
  apply minds_serviceCall (.job hadmitted.token hadmitted.allowed hop)
  intro caller hcaller
  rw [service_caller hop] at hcaller
  cases hcaller
  exact hadmitted.role

theorem assures_initiateDeposit (r : DepositRequest) (hs : SiteLaw E s) :
    (InitiateDepositView.post E r).AssuresFrom (SiteLaw E) Kept
      (SiteStep E allowed ((MarketRequest.deposit r).Grants E s)) (fun _ _ => True) s := by
  refine Code.assuresFrom_bind (Kept.refl s) hs (admitted_initial hs) fun user s₁ hadmitted => ?_
  refine Code.assures_bind (P := fun x s' => InitiateDepositSerializer.validate E.py r.data = some x ∧ s' = s₁) ?_ ?_
  · apply Code.assures_ofExcept
    intro x hx
    cases hdata : InitiateDepositSerializer.validate E.py r.data with
    | none =>
      rw [hdata] at hx
      cases hx
    | some y =>
      rw [hdata] at hx
      cases hx
      exact ⟨rfl, rfl⟩
  · rintro ⟨amount, provider⟩ s' ⟨hdata, rfl⟩
    apply minds_serviceCall (.deposit hadmitted.token hadmitted.allowed hdata)
    intro caller hcaller
    cases hcaller
    exact hadmitted.role

/-- a callback is one step of `confirm_deposit`, or none -/
theorem assures_callback (cb : Callback) :
    Minds E allowed ((MarketRequest.callback cb).Grants E s₀) (fun _ _ => True) (cb.view E) s := by
  apply Code.assures_act SiteStep.refl
  intro s' x hkept hs h
  cases h
  have hstep : SiteStep E allowed ((MarketRequest.callback cb).Grants E s₀) s'
      { s' with db := (cb.post E s'.db).2 } := by
    rcases post_cases E s'.db cb with hsame | ⟨v, hconfirms, hstep⟩
    · exact .same rfl hsame
    · refine .served _ (.callback hconfirms) ?_ rfl hstep
      intro user hcaller
      cases hcaller
  exact ⟨hstep.law hs, hstep, trivial⟩

/-- a later state of the site -/
structure Onward (E : Env) (s s' : Site) : Prop where
  kept : Kept s s'
  law : SiteLaw E s'

/-- the page that a user gets: the user is the one of the token, and the jobs were counted and read during the call -/
def MyPage (E : Env) (P : PageSettings) (id : Pk) (status : Option String) (q : PageQuery) (s₀ : Site)
    (page : Page Job) (s : Site) : Prop :=
  ∃ user, JWTAuthentication.authenticate s₀.accounts id = .ok user ∧
    Paged P q (JobViewSet.myJobsQuery user status) (Onward E) s₀ page s

theorem assures_myJobs (status : Option String) (q : PageQuery) (hs : SiteLaw E s) :
    (JobViewSet.myJobs P id status q).AssuresFrom (SiteLaw E) Kept (SiteStep E allowed may)
      (MyPage E P id status q s) s := by
  apply Code.assuresFrom_bind (P := fun user s' => JWTAuthentication.authenticate s.accounts id = .ok user ∧ Kept s s')
    (Kept.refl s) hs
  · apply Code.assuresFrom_query_bind SiteStep.refl hs
    intro user huser
    exact Code.assures_bind (P := fun _ s' => Kept s s') (Code.assures_ofExcept fun _ _ => Kept.refl s) fun _ s' h =>
      ⟨huser, h⟩
  · rintro user s₁ ⟨huser, hkept⟩
    exact (assures_paginateQueryset SiteStep.refl (fun s' h hlaw => ⟨hkept.trans h, hlaw⟩) fun s s' h hlaw =>
      ⟨h, hlaw⟩).post fun page s' h => ⟨user, huser, h⟩

/-- JobFilterSerializer changes nothing -/
theorem validate_ok {f f' : JobFilter ℚ}
    (h : (JobFilterSerializer.validate f).mapError (fun _ => Failure.fieldError) = .ok f') : f' = f := by
  unfold JobFilterSerializer.validate at h
  split_ifs at h <;> cases h
  rfl

/-- a search answers with a page of what there was to find -/
theorem assures_listPage (f : JobFilter ℚ) (q : PageQuery) (hs : SiteLaw E s) :
    (JobViewSet.listPage S P id f q).AssuresFrom (SiteLaw E) Kept (SiteStep E allowed may)
      (Paged P q (available S f) (Onward E) s) s := by
  refine Code.assuresFrom_bind (Kept.refl s) hs (P := fun _ s' => Kept s s' ∧ SiteLaw E s') ?_ ?_
  · apply Code.assuresFrom_query_bind SiteStep.refl hs
    intro user huser
    refine Code.assures_bind (P := fun _ s' => s' = s) (Code.assures_ofExcept fun _ _ => rfl) ?_
    rintro - s' rfl
    exact ⟨Kept.refl s', hs⟩
  rintro user s₁ ⟨hkept, hlaw⟩
  refine Code.assures_bind (P := fun f' s' => f' = f ∧ s' = s₁) ?_ ?_
  · apply Code.assures_ofExcept
    intro f' h
    exact ⟨validate_ok h, rfl⟩
  rintro f' s' ⟨rfl, rfl⟩
  split_ifs
  · refine Code.assures_bind (P := fun jobs s'' => jobs = available S f' s'' ∧ Onward E s s'') ?_ ?_
    · apply Code.assures_query SiteStep.refl
      intro s'' jobs h hlaw' hjobs
      cases hjobs
      exact ⟨rfl, hkept.trans h, hlaw'⟩
    · rintro jobs s'' ⟨rfl, honward⟩
      apply Code.assures_ofExcept
      intro page hpage
      exact paged_of_paginate honward ⟨Kept.refl s'', honward.law⟩ hpage
  · exact assures_paginateQueryset SiteStep.refl (fun s'' h hlaw' => ⟨hkept.trans h, hlaw'⟩) fun _ _ h hlaw' =>
      ⟨h, hlaw'⟩

/-- what is promised of an answer -/
def MarketRequest.Answer (E : Env) (P : PageSettings) (S : SearchEnv) (s₀ : Site) :
    MarketRequest → MarketAnswer → Site → Prop
  | .wallet user, .wallet w, s => s.db.wallets.find user = some w
  | .myJobs user status q, .jobs page, s => MyPage E P user status q s₀ page s
  | .list _ f q, .found page, s => Paged P q (available S f) (Onward E) s₀ page s
  | _, _, _ => True

/-- **What a request does** is what it was granted when it began. -/
theorem assures_market (r : MarketRequest) (hs : SiteLaw E s) :
    (r.code E P S).AssuresFrom (SiteLaw E) Kept (SiteStep E allowed (r.Grants E s)) (r.Answer E P S s) s := by
  cases r with
  | job r => exact Code.assuresFrom_bind (Kept.refl s) hs (assures_dispatch r hs) fun _ _ _ => trivial
  | deposit r => exact Code.assuresFrom_bind (Kept.refl s) hs (assures_initiateDeposit r hs) fun _ _ _ => trivial
  | wallet user => exact Code.assuresFrom_bind (Kept.refl s) hs (assures_walletView hs) fun _ _ h => h
  | myJobs user status q => exact Code.assuresFrom_bind (Kept.refl s) hs (assures_myJobs status q hs) fun _ _ h => h
  | list user f q => exact Code.assuresFrom_bind (Kept.refl s) hs (assures_listPage f q hs) fun _ _ h => h
  | callback cb =>
    exact Code.assuresFrom_bind (Kept.refl s) hs ((assures_callback cb).start (Kept.refl s) hs) fun _ _ _ => trivial

end Grants

end GigMarketplace
