/-
Who may call what: the permission classes of `apps/core/permissions.py`, on the actions of JobViewSet that write and on
SendMessageView.

A request is authenticated (JWTAuthentication refuses a user that is gone or not active), the permission classes of its
action are checked in their order, and the view runs. The permission classes that the decorator of an action names stand
in place of those of the view set. Each view that writes does so in one transaction or in its last statement, so a
request is one step here; what else happens to the accounts and to the backend (other calls, the admin form, which sets
`is_blocked` without `is_active`) may come between two requests and may be anything.

What CreateJobSerializer makes of the request's data is part of the request. Left out: the throttles, the images of a
job and the rendering of the answer.

Results:
- `serve_blocked`: when the request of a blocked user is refused;
- `blocked_refused_iff`: this for every request of every run;
- `blocked_accepts`: one that is served.
-/
import GigMarketplace.ChatSignals

namespace GigMarketplace

open GigMarketplace.Core GigMarketplace.Core.Prog

/-! ## Permission classes -/

inductive Permission where
  | isAuthenticated
  | isActiveUser
  | isEmployer
  | isWorker
deriving DecidableEq, Repr

def Permission.message : Permission → String
  | .isAuthenticated => "You do not have permission to perform this action."
  | .isActiveUser => "Your account has been suspended."
  | .isEmployer => "Only employers can perform this action."
  | .isWorker => "Only workers can perform this action."

def Account.toUser (a : Account) : User := ⟨a.id, a.role⟩

def Account.displayName (a : Account) : String := if a.name ≠ "" then a.name else a.phoneNumber

/-- `has_permission`, for a user that is authenticated -/
def Permission.hasPermission (user : Account) : Permission → Bool
  | .isAuthenticated => true
  | .isActiveUser => user.isActive ∧ ¬ user.isBlocked
  | .isEmployer => user.toUser.isEmployer
  | .isWorker => user.toUser.isWorker

/-- `check_permissions` -/
def checkPermissions (user : Account) : List Permission → Except Failure Unit
  | [] => .ok ()
  | p :: ps => if p.hasPermission user then checkPermissions user ps else .error (.permissionDenied p.message)

/-- JWTAuthentication, for the user that a valid token names -/
def JWTAuthentication.authenticate (accounts : Table Account) (id : Pk) : Except Failure Account :=
  match accounts.find id with
  | none => .error (.authenticationFailed "User not found")
  | some user => if user.isActive then .ok user else .error (.authenticationFailed "User is inactive")

theorem checkPermissions_ok {user : Account} {ps : List Permission} :
    checkPermissions user ps = .ok () ↔ ∀ p ∈ ps, p.hasPermission user = true := by
  induction ps with
  | nil => simp [checkPermissions]
  | cons p ps ih =>
    rw [List.forall_mem_cons, ← ih, checkPermissions]
    split_ifs with h
    · exact (and_iff_right h).symm
    · exact iff_of_false (by simp) fun hall => h hall.1

/-! ## Requests -/

inductive Action where
  /-- `data`: none, if CreateJobSerializer raises -/
  | create (id : Pk) (data : Option JobData)
  | accept (pk : String)
  | start (pk : String)
  | complete (pk : String)
  | cancel (pk : String) (data : Json)
  | destroy (pk : String) (data : Json)
  | sendMessage (roomId : Pk) (data : Json)

def JobViewSet.permissionClasses : List Permission := [.isAuthenticated, .isActiveUser]

def SendMessageView.permissionClasses : List Permission := [.isAuthenticated]

def Action.permissionClasses : Action → List Permission
  | .create .. => JobViewSet.permissionClasses
  | .accept _ => [.isAuthenticated, .isWorker]
  | .start _ => [.isAuthenticated, .isWorker]
  | .complete _ => [.isAuthenticated, .isEmployer]
  | .cancel .. => JobViewSet.permissionClasses
  | .destroy .. => JobViewSet.permissionClasses
  | .sendMessage .. => SendMessageView.permissionClasses

/-- the user of the token, and what the sequences would give a new room and a new message -/
structure ApiRequest where
  user : Pk
  action : Action
  now : Time
  roomId : Pk
  messageId : Pk

/-- `CharField(max_length=500, required=False, allow_blank=True, default="")` -/
def CancelJobSerializer.reason (v : Option Json) : Option String :=
  match v with
  | none => some ""
  | some v =>
    (fieldText v).bind fun s =>
      if strip s = "" then some ""
      else if hasNull (strip s) ∨ 500 < (strip s).length then none
      else some (strip s)

def CancelJobSerializer.validate : Json → Option String
  | .obj fields => CancelJobSerializer.reason (getField fields "reason")
  | _ => none

/-! ## Views -/

/-- a call of JobService in the running backend, as `Backend.step`, with what the request comes to -/
def Backend.perform (E : Env) (s : Backend) (call : JobCall) : Except Failure Unit × Backend :=
  match exec store (call.prog E) s.db with
  | .error e => (.error (.exc e), s)
  | .ok (job, db') =>
    match (Interpreter.started E.debug).postSaveJob call.op.created job call.roomId call.messageId call.now s.chat with
    | .error e => (.error (.exc e), s)
    | .ok chat' => (.ok (), ⟨db', chat'⟩)

section Views

variable (E : Env) (r : ApiRequest) (user : Account) (s : Backend)

namespace JobViewSet

def create (id : Pk) (data : Option JobData) : Except Failure Unit × Backend :=
  if ¬ user.toUser.isEmployer then (.error (.exc (.forbidden "Only employers can create jobs.")), s)
  else
    match data with
    | none => (.error .fieldError, s)
    | some data => s.perform E ⟨.createJob id user.toUser data, r.now, r.roomId, r.messageId⟩

def accept (pk : String) : Except Failure Unit × Backend :=
  s.perform E ⟨.acceptJob pk user.toUser, r.now, r.roomId, r.messageId⟩

def start (pk : String) : Except Failure Unit × Backend :=
  s.perform E ⟨.startJob pk user.toUser, r.now, r.roomId, r.messageId⟩

def complete (pk : String) : Except Failure Unit × Backend :=
  s.perform E ⟨.completeJob pk user.toUser, r.now, r.roomId, r.messageId⟩

def cancel (pk : String) (data : Json) : Except Failure Unit × Backend :=
  match CancelJobSerializer.validate data with
  | none => (.error .fieldError, s)
  | some reason => s.perform E ⟨.cancelJob pk user.toUser reason, r.now, r.roomId, r.messageId⟩

def destroy (pk : String) (data : Json) : Except Failure Unit × Backend := cancel E r user s pk data

end JobViewSet

def SendMessageView.handle (roomId : Pk) (data : Json) : Except Failure Unit × Backend :=
  let x := (SendMessageView.post ⟨user.id, user.displayName⟩ roomId data r.messageId r.now).run s.chat
  (x.1, { s with chat := x.2 })

def Action.handle : Action → Except Failure Unit × Backend
  | .create id data => JobViewSet.create E r user s id data
  | .accept pk => JobViewSet.accept E r user s pk
  | .start pk => JobViewSet.start E r user s pk
  | .complete pk => JobViewSet.complete E r user s pk
  | .cancel pk data => JobViewSet.cancel E r user s pk data
  | .destroy pk data => JobViewSet.destroy E r user s pk data
  | .sendMessage roomId data => SendMessageView.handle r user s roomId data

end Views

structure Portal where
  accounts : Table Account
  backend : Backend

/-- `dispatch`: what the request comes to, and the state after it -/
def Portal.serve (E : Env) (s : Portal) (r : ApiRequest) : Except Failure Unit × Portal :=
  match JWTAuthentication.authenticate s.accounts r.user with
  | .error e => (.error e, s)
  | .ok user =>
    match checkPermissions user r.action.permissionClasses with
    | .error e => (.error e, s)
    | .ok () =>
      let x := r.action.handle E r user s.backend
      (x.1, { s with backend := x.2 })

inductive PortalEvent where
  | request (r : ApiRequest)
  /-- whatever else the backend and the admin site do -/
  | elsewhere (s' : Portal)

/-- `P` holds of every request of the run, in the state it is made in -/
def EveryRequest (E : Env) (P : Portal → ApiRequest → Prop) : Portal → List PortalEvent → Prop
  | _, [] => True
  | s, .request r :: evs => P s r ∧ EveryRequest E P (s.serve E r).2 evs
  | _, .elsewhere s' :: evs => EveryRequest E P s' evs

theorem everyRequest_congr {E : Env} {P Q : Portal → ApiRequest → Prop} (h : ∀ s r, P s r ↔ Q s r) (s : Portal)
    (evs : List PortalEvent) : EveryRequest E P s evs ↔ EveryRequest E Q s evs := by
  induction evs generalizing s with
  | nil => exact Iff.rfl
  | cons ev evs ih =>
    cases ev with
    | request r => exact and_congr (h s r) (ih _)
    | elsewhere s' => exact ih s'

/-! ## What a request needs -/

section Needs

variable (E : Env) (user : Account) (s : Backend)

/-- the room of the job is there, or its rows can be created -/
def RoomReady (job roomId messageId : Pk) : Prop :=
  (∃ room ∈ s.chat.rooms.rows, room.job = job) ∨
    s.chat.rooms.find roomId = none ∧ ∀ m ∈ s.chat.messages, m.id ≠ messageId

/-- the job is there for this worker to accept; where the receiver of `post_save` is called, it does not raise -/
def MayAccept (roomId messageId : Pk) (pk : String) : Prop :=
  user.toUser.isWorker = true ∧ ∃ job, Fetched E s.db pk job ∧ job.status = .created ∧ job.employer ≠ user.id ∧
    (s.db.users.find user.id).isSome ∧ (E.debug = true → RoomReady s job.id roomId messageId)

def MayStart (pk : String) : Prop :=
  user.toUser.isWorker = true ∧ ∃ job, FetchedJoined E s.db pk job ∧ job.worker = some user.id ∧ job.status = .accepted

/-- the engine serves the query, both wallets are there, and the amounts stay in range -/
def MayComplete (pk : String) : Prop :=
  user.toUser.isEmployer = true ∧ ∃ job we worker ww, FetchedOuter E s.db pk job ∧ job.employer = user.id ∧
    job.status = .inProgress ∧ job.worker = some worker ∧ s.db.wallets.find job.employer = some we ∧
    s.db.wallets.find worker = some ww ∧ ReleaseChecks E job we ww

def MaySend (messageId roomId : Pk) (data : Json) : Prop :=
  (∃ room, s.chat.rooms.find roomId = some room ∧ room.isParticipant user.id = true) ∧
    (SendMessageSerializer.validate data).isSome ∧ ∀ m ∈ s.chat.messages, m.id ≠ messageId

/-- the action does not ask whether the user is blocked, and all it asks is so -/
def OpenToBlocked (r : ApiRequest) : Prop :=
  match r.action with
  | .create .. => False
  | .accept pk => MayAccept E user s r.roomId r.messageId pk
  | .start pk => MayStart E user s pk
  | .complete pk => MayComplete E user s pk
  | .cancel .. => False
  | .destroy .. => False
  | .sendMessage roomId data => MaySend user s r.messageId roomId data

end Needs

/-- refused, with nothing changed -/
def Refused (E : Env) (s : Portal) (r : ApiRequest) : Prop :=
  (s.serve E r).1 ≠ .ok () ∧ (s.serve E r).2 = s

section Refused

variable {E : Env} {user : Account} {s : Backend} {p : Portal} {r : ApiRequest}

/-- the job is saved, and the signal raises nothing -/
def Performs (E : Env) (s : Backend) (call : JobCall) : Prop :=
  ∃ job db', Runs store (call.prog E) s.db job db' ∧ ∃ chat', (Interpreter.started E.debug).postSaveJob
    call.op.created job call.roomId call.messageId call.now s.chat = .ok chat'

theorem perform_refused (call : JobCall) :
    ((s.perform E call).1 ≠ .ok () ∧ (s.perform E call).2 = s) ↔ ¬ Performs E s call := by
  unfold Backend.perform Performs
  cases hexec : exec store (call.prog E) s.db with
  | error e =>
    refine iff_of_true ⟨by simp, rfl⟩ ?_
    rintro ⟨job, db', hruns, -⟩
    rw [Runs, hexec] at hruns
    cases hruns
  | ok x =>
    obtain ⟨job, db'⟩ := x
    dsimp only
    cases hsignal : (Interpreter.started E.debug).postSaveJob call.op.created job call.roomId call.messageId call.now
        s.chat with
    | error e =>
      refine iff_of_true ⟨by simp, rfl⟩ ?_
      rintro ⟨job', db'', hruns, chat', hchat⟩
      rw [Runs, hexec] at hruns
      cases hruns
      rw [hsignal] at hchat
      cases hchat
    | ok chat' => exact iff_of_false (fun h => h.1 rfl) fun h => h ⟨job, db', hexec, chat', hsignal⟩

/-- a save that is no acceptance -/
theorem postSaveJob_quiet {i : Interpreter} {created : Bool} {job : Job} {roomId messageId : Pk} {now : Time}
    {chat : ChatSite} (hstatus : job.status ≠ .accepted) :
    i.postSaveJob created job roomId messageId now chat = .ok chat := by
  by_cases hconnected : i.Connected .createChatRoomOnAccept
  · rw [postSaveJob_of_connected hconnected]
    unfold createChatRoomOnAccept
    cases job.worker with
    | none => rfl
    | some worker => exact if_neg fun h => hstatus h.2
  · exact postSaveJob_of_not_connected hconnected

/-- the save of an acceptance -/
theorem postSaveJob_accepted {debug : Bool} {job : Job} {worker roomId messageId : Pk} {now : Time}
    (hworker : job.worker = some worker) (hstatus : job.status = .accepted) :
    (∃ chat', (Interpreter.started debug).postSaveJob false job roomId messageId now s.chat = .ok chat') ↔
      (debug = true → RoomReady s job.id roomId messageId) := by
  by_cases hdebug : debug = true
  · rw [postSaveJob_of_connected ((started_connected _).2 hdebug), forall_prop_of_true hdebug]
    unfold createChatRoomOnAccept RoomReady
    rw [hworker]
    dsimp only
    rw [if_pos ⟨rfl, hstatus⟩]
    split_ifs with hfound hfresh
    · exact iff_of_true ⟨_, rfl⟩ (Or.inl hfound)
    · exact iff_of_true ⟨_, rfl⟩ (Or.inr hfresh)
    · refine iff_of_false ?_ fun h => h.elim hfound hfresh
      rintro ⟨chat', h⟩
      cases h
  · refine iff_of_true ⟨s.chat, ?_⟩ fun h => absurd h hdebug
    exact postSaveJob_of_not_connected fun h => hdebug ((started_connected _).1 h)

theorem performs_accept_iff {pk : String} (hworker : user.toUser.isWorker = true) :
    Performs E s ⟨.acceptJob pk user.toUser, r.now, r.roomId, r.messageId⟩ ↔
      MayAccept E user s r.roomId r.messageId pk := by
  unfold MayAccept
  rw [and_iff_right hworker]
  constructor
  · rintro ⟨job, db', hruns, hsignal⟩
    obtain ⟨j, hj, -, hstatus, hown, huser, rfl, -⟩ := runs_acceptJob.1 hruns
    have hroom := (postSaveJob_accepted (by rfl) (by rfl)).1 hsignal
    exact ⟨j, hj, hstatus, hown, huser, hroom⟩
  · rintro ⟨j, hj, hstatus, hown, huser, hroom⟩
    exact ⟨_, _, runs_acceptJob.2 ⟨j, hj, hworker, hstatus, hown, huser, rfl, rfl⟩,
      (postSaveJob_accepted (by rfl) (by rfl)).2 hroom⟩

theorem performs_start_iff {pk : String} (hworker : user.toUser.isWorker = true) :
    Performs E s ⟨.startJob pk user.toUser, r.now, r.roomId, r.messageId⟩ ↔ MayStart E user s pk := by
  unfold MayStart
  rw [and_iff_right hworker]
  constructor
  · rintro ⟨job, db', hruns, -⟩
    obtain ⟨j, hj, hmine, hstatus, -, -⟩ := runs_startJob.1 hruns
    exact ⟨j, hj, hmine, hstatus⟩
  · rintro ⟨j, hj, hmine, hstatus⟩
    exact ⟨_, _, runs_startJob.2 ⟨j, hj, hmine, hstatus, rfl, rfl⟩, _, postSaveJob_quiet JobStatus.noConfusion⟩

theorem performs_complete_iff {pk : String} (hemployer : user.toUser.isEmployer = true) :
    Performs E s ⟨.completeJob pk user.toUser, r.now, r.roomId, r.messageId⟩ ↔ MayComplete E user s pk := by
  unfold MayComplete
  rw [and_iff_right hemployer]
  constructor
  · rintro ⟨job, db', hruns, -⟩
    obtain ⟨j, we, worker, ww, hj, -, hown, hstatus, hworker, hwe, hww, hchecks, -, -⟩ := runs_completeJob.1 hruns
    exact ⟨j, we, worker, ww, hj, hown, hstatus, hworker, hwe, hww, hchecks⟩
  · rintro ⟨j, we, worker, ww, hj, hown, hstatus, hworker, hwe, hww, hchecks⟩
    exact ⟨_, _, runs_completeJob.2
      ⟨j, we, worker, ww, hj, hemployer, hown, hstatus, hworker, hwe, hww, hchecks, rfl, rfl⟩, _,
      postSaveJob_quiet JobStatus.noConfusion⟩

/-! ### Messages -/

theorem reads_getRoomOr404 (roomId user : Pk) : (SendMessageView.getRoomOr404 roomId user).Each Eq := by
  refine Code.each_bind (Code.each_query (fun _ => rfl) _) fun room => ?_
  exact Code.each_bind (Code.each_raiseIf _ _) fun _ => trivial

theorem clean_post (user : ChatUser) (roomId : Pk) (data : Json) (id : Pk) (now : Time) :
    (SendMessageView.post user roomId data id now).Clean := by
  refine Code.clean_bind (reads_getRoomOr404 _ _) fun room => ?_
  refine Code.clean_bind (Code.each_ofExcept _) fun content => ?_
  exact Code.clean_bind_pure (Code.clean_act _) fun _ => ()

theorem validate_hasNull {data : Json} {content : String} (h : SendMessageSerializer.validate data = some content) :
    hasNull content = false := by
  unfold SendMessageSerializer.validate at h
  split at h
  · obtain ⟨v, -, hv⟩ := Option.bind_eq_some_iff.1 h
    obtain ⟨text, -, htext⟩ := Option.bind_eq_some_iff.1 hv
    split_ifs at htext with hbad
    cases htext
    simp only [not_or] at hbad
    simpa using hbad.2.1
  · cases h

theorem returns_getRoom {chat chat' : ChatSite} {roomId user : Pk} {room : ChatRoom} :
    (SendMessageView.getRoomOr404 roomId user).Returns chat room chat' ↔
      chat.rooms.find roomId = some room ∧ room.isParticipant user = true ∧ chat' = chat := by
  simp only [SendMessageView.getRoomOr404, Code.returns_bind, Code.returns_query, Code.returns_raiseIf,
    Code.returns_pure, not_not]
  constructor
  · rintro ⟨room', _, ⟨hquery, rfl⟩, _, _, ⟨hpart, rfl⟩, rfl, rfl⟩
    split at hquery
    · cases hquery
    · rename_i hfind
      cases hquery
      exact ⟨hfind, hpart, rfl⟩
  · rintro ⟨hfind, hpart, rfl⟩
    exact ⟨room, _, ⟨by rw [hfind], rfl⟩, (), _, ⟨hpart, rfl⟩, rfl, rfl⟩

theorem returns_messageCreate {chat chat' : ChatSite} {m m' : Message} :
    (Message.create m).Returns chat m' chat' ↔
      hasNull m.content = false ∧ (∀ m' ∈ chat.messages, m'.id ≠ m.id) ∧ m' = m ∧
        chat' = { chat with messages := chat.messages ++ [m] } := by
  refine Code.returns_act.trans ?_
  split_ifs with hnull htaken
  · exact iff_of_false (by simp) fun h => by simp [hnull] at h
  · refine iff_of_false (by simp) fun h => ?_
    obtain ⟨m', hm', hid⟩ := htaken
    exact h.2.1 m' hm' hid
  · simp only [not_exists, not_and] at htaken
    constructor
    · intro h
      cases h
      exact ⟨by simpa using hnull, htaken, rfl, rfl⟩
    · rintro ⟨-, -, rfl, rfl⟩
      rfl

theorem post_returns_iff {roomId : Pk} {data : Json} {id : Pk} (name : String) (now : Time) :
    (∃ chat', (SendMessageView.post ⟨user.id, name⟩ roomId data id now).Returns s.chat () chat') ↔
      MaySend user s id roomId data := by
  simp only [SendMessageView.post, Code.returns_bind, returns_getRoom, Code.returns_ofExcept, returns_messageCreate,
    Code.returns_pure]
  unfold MaySend
  constructor
  · rintro ⟨chat', room, _, ⟨hfind, hpart, rfl⟩, content, _, ⟨hvalid, rfl⟩, _, _, ⟨-, hfresh, rfl, rfl⟩, -, rfl⟩
    refine ⟨⟨room, hfind, hpart⟩, ?_, hfresh⟩
    cases hdata : SendMessageSerializer.validate data with
    | none =>
      rw [hdata] at hvalid
      cases hvalid
    | some text => rfl
  · rintro ⟨⟨room, hfind, hpart⟩, hvalid, hfresh⟩
    obtain ⟨content, hdata⟩ := Option.isSome_iff_exists.1 hvalid
    refine ⟨_, room, _, ⟨hfind, hpart, rfl⟩, content, _, ⟨by rw [hdata]; rfl, rfl⟩, _, _,
      ⟨validate_hasNull hdata, hfresh, rfl, rfl⟩, trivial, rfl⟩

theorem send_refused {roomId : Pk} {data : Json} :
    ((SendMessageView.handle r user s roomId data).1 ≠ .ok () ∧ (SendMessageView.handle r user s roomId data).2 = s) ↔
      ¬ MaySend user s r.messageId roomId data := by
  rw [← post_returns_iff user.displayName r.now]
  unfold SendMessageView.handle
  dsimp only
  have hclean := clean_post ⟨user.id, user.displayName⟩ roomId data r.messageId r.now s.chat
  rcases hrun : (SendMessageView.post ⟨user.id, user.displayName⟩ roomId data r.messageId r.now).run s.chat with
    ⟨x, chat'⟩
  rw [hrun] at hclean
  cases x with
  | ok u => exact iff_of_false (fun h => h.1 rfl) fun h => h ⟨chat', hrun⟩
  | error e =>
    have hsame : chat' = s.chat := hclean e rfl
    refine iff_of_true ⟨by simp, by rw [hsame]⟩ ?_
    rintro ⟨chat'', hreturns⟩
    rw [Code.Returns, hrun] at hreturns
    cases hreturns

/-! ### The whole request -/

theorem serve_of_inactive (hfind : p.accounts.find r.user = some user) (hactive : user.isActive = false) :
    p.serve E r = (.error (.authenticationFailed "User is inactive"), p) := by
  simp [Portal.serve, JWTAuthentication.authenticate, hfind, hactive]

theorem serve_of_active (hfind : p.accounts.find r.user = some user) (hactive : user.isActive = true) :
    p.serve E r =
      match checkPermissions user r.action.permissionClasses with
      | .error e => (.error e, p)
      | .ok () =>
        ((r.action.handle E r user p.backend).1, { p with backend := (r.action.handle E r user p.backend).2 }) := by
  simp [Portal.serve, JWTAuthentication.authenticate, hfind, hactive]

/-- a permission class refuses -/
theorem refused_of_forbidden (hfind : p.accounts.find r.user = some user) (hactive : user.isActive = true)
    {q : Permission} (hq : q ∈ r.action.permissionClasses) (hno : q.hasPermission user = false) : Refused E p r := by
  unfold Refused
  rw [serve_of_active hfind hactive]
  cases hcheck : checkPermissions user r.action.permissionClasses with
  | error e => exact ⟨by simp, rfl⟩
  | ok u =>
    have hall := checkPermissions_ok.1 hcheck q hq
    rw [hno] at hall
    cases hall

/-- the view decides -/
theorem refused_of_permitted (hfind : p.accounts.find r.user = some user) (hactive : user.isActive = true)
    (hall : ∀ q ∈ r.action.permissionClasses, q.hasPermission user = true) :
    Refused E p r ↔
      (r.action.handle E r user p.backend).1 ≠ .ok () ∧ (r.action.handle E r user p.backend).2 = p.backend := by
  unfold Refused
  rw [serve_of_active hfind hactive, checkPermissions_ok.2 hall]
  refine and_congr_right fun _ => ?_
  constructor
  · intro h
    exact congrArg Portal.backend h
  · intro h
    exact congrArg (fun b => { p with backend := b }) h

/-- the two cases of an action with one class besides IsAuthenticated, which does not ask whether the user is blocked -/
theorem refused_of_role (hfind : p.accounts.find r.user = some user) (hactive : user.isActive = true) {q : Permission}
    (hclasses : r.action.permissionClasses = [.isAuthenticated, q]) {May : Prop}
    (hrole : May → q.hasPermission user = true)
    (hview : q.hasPermission user = true → (((r.action.handle E r user p.backend).1 ≠ .ok () ∧
      (r.action.handle E r user p.backend).2 = p.backend) ↔ ¬ May)) : Refused E p r ↔ ¬ May := by
  by_cases hq : q.hasPermission user = true
  · rw [← hview hq]
    apply refused_of_permitted hfind hactive
    rw [hclasses]
    simpa [Permission.hasPermission] using hq
  · refine iff_of_true (refused_of_forbidden hfind hactive ?_ (by simpa using hq)) fun hmay => hq (hrole hmay)
    rw [hclasses]
    simp

/-- **A blocked user's request** is refused exactly if the user is not active either, or the action asks for
IsActiveUser, or the request fails for another reason. -/
theorem serve_blocked (hfind : p.accounts.find r.user = some user) (hblocked : user.isBlocked = true) :
    Refused E p r ↔ (user.isActive = true → ¬ OpenToBlocked E user p.backend r) := by
  cases hactive : user.isActive with
  | false =>
    refine iff_of_true ?_ fun h => by cases h
    unfold Refused
    rw [serve_of_inactive hfind hactive]
    exact ⟨by simp, rfl⟩
  | true =>
    rw [forall_prop_of_true rfl]
    have hsuspended : Permission.isActiveUser.hasPermission user = false := by simp [Permission.hasPermission, hblocked]
    have hasked : Permission.isActiveUser ∈ JobViewSet.permissionClasses := by decide
    obtain ⟨id, action, now, roomId, messageId⟩ := r
    cases action with
    | create jobId data => exact iff_of_true (refused_of_forbidden hfind hactive hasked hsuspended) not_false
    | accept pk =>
      refine refused_of_role hfind hactive rfl And.left fun hrole => ?_
      exact (perform_refused _).trans (not_congr (performs_accept_iff hrole))
    | start pk =>
      refine refused_of_role hfind hactive rfl And.left fun hrole => ?_
      exact (perform_refused _).trans (not_congr (performs_start_iff hrole))
    | complete pk =>
      refine refused_of_role hfind hactive rfl And.left fun hrole => ?_
      exact (perform_refused _).trans (not_congr (performs_complete_iff hrole))
    | cancel pk data => exact iff_of_true (refused_of_forbidden hfind hactive hasked hsuspended) not_false
    | destroy pk data => exact iff_of_true (refused_of_forbidden hfind hactive hasked hsuspended) not_false
    | sendMessage room data =>
      refine (refused_of_permitted hfind hactive ?_).trans send_refused
      intro q hq
      cases List.mem_singleton.1 hq
      rfl

end Refused

/-! ## The law -/

/-- **A blocked user cannot act**: in every run, every request of a blocked user is refused with nothing changed
exactly if in the state it is made in the user is not active either, or the action asks for IsActiveUser, or the
request fails for another reason. -/
theorem blocked_refused_iff (E : Env) (s : Portal) (evs : List PortalEvent) :
    EveryRequest E (fun s r => ∀ user, s.accounts.find r.user = some user → user.isBlocked = true → Refused E s r) s
        evs ↔
      EveryRequest E (fun s r => ∀ user, s.accounts.find r.user = some user → user.isBlocked = true →
        user.isActive = true → ¬ OpenToBlocked E user s.backend r) s evs := by
  refine everyRequest_congr (fun p r => ?_) s evs
  exact forall_congr' fun user => forall_congr' fun hfind => forall_congr' fun hblocked => serve_blocked hfind hblocked

/-- the worker is blocked and still active, as the admin form leaves him; one job waits -/
def demoPortal : Portal where
  accounts := demoAccounts.update 2 fun a => { a with isBlocked := true }
  backend := demoBackend.step demoEnv (.started false) demoCreated

def demoAccept : ApiRequest := ⟨2, .accept "1", 1, 1, 1⟩

/-- he accepts the job -/
theorem blocked_accepts :
    (demoPortal.accounts.find 2).map (fun a => (a.isActive, a.isBlocked)) = some (true, true) ∧
      ((demoPortal.serve demoEnv demoAccept).2.backend.db.jobs.find 1).map (fun job => (job.status, job.worker)) =
        some (.accepted, some 2) ∧
      ¬ Refused demoEnv demoPortal demoAccept := by
  refine ⟨by decide +kernel, by decide +kernel, ?_⟩
  rintro ⟨-, hsame⟩
  have hworker : ((demoPortal.serve demoEnv demoAccept).2.backend.db.jobs.find 1).map Job.worker =
      (demoPortal.backend.db.jobs.find 1).map Job.worker := by rw [hsame]
  revert hworker
  decide +kernel

end GigMarketplace
