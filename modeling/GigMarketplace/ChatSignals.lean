/-
Chat rooms for accepted jobs: `apps/chat/signals.py` with `ChatConfig.ready`, and the saves of JobService that would
call the receiver.

`Signal.connect` keeps a weak reference to a receiver, so what is called later depends on what else refers to it.
`Interpreter` is the part of the start-up that decides this: the functions bound at module level, the local variables of
the functions under way, a cache of Django's, and `post_save.receivers`. When a function returns, its locals go, and a
receiver that nothing refers to any more is freed and no longer called. `accounts/signals.py` defines its receiver at
module level, `setup_chat_signals` inside a function. With `settings.DEBUG` on, `Signal.connect` looks at the parameters
of the receiver (`func_accepts_kwargs`), and the cache of what it has seen, of 512 functions, keeps the receiver alive;
that so many others displace it is left out.

`Backend` is the database with the chat beside it. A call of JobService is a transaction of `Jobs.lean`; the save of the
job in it sends `post_save`, and a receiver that raises rolls the transaction back.

Results:
- `local_receiver_iff`: whatever the interpreter's state, a receiver defined weakly inside a function is called when the
  function has returned exactly if DEBUG is on;
- `saved_cases`: what the five calls save;
- `rooms_match_of_connected`: with the receiver connected, every accepted job has its room, in every run;
- `chat_rooms_iff`: after the start-up as it is, this holds exactly if DEBUG is on or no accept_job has succeeded;
- `accepted_without_room`: one accepted job.
-/
import GigMarketplace.Chat

namespace GigMarketplace

open GigMarketplace.Core GigMarketplace.Core.Prog

/-! ## Start-up -/

/-- the receivers of post_save -/
inductive Receiver where
  /-- `sender=User` -/
  | createUserWallet
  /-- `sender=Job` -/
  | createChatRoomOnAccept
deriving DecidableEq, Repr

structure Interpreter where
  /-- functions that a module's name refers to -/
  globals : List Receiver
  /-- the local variables of the functions under way -/
  frames : List (List Receiver)
  /-- functions whose parameters `func_accepts_kwargs` has looked at -/
  cached : List Receiver
  /-- `post_save.receivers`; true: a weak reference -/
  receivers : List (Receiver × Bool)
deriving DecidableEq, Repr

/-- something other than the signal refers to the function -/
def Interpreter.refersTo (i : Interpreter) (r : Receiver) : Bool :=
  r ∈ i.globals ∨ (∃ frame ∈ i.frames, r ∈ frame) ∨ r ∈ i.cached

/-- freed functions leave the signal -/
def Interpreter.collect (i : Interpreter) : Interpreter :=
  { i with receivers := i.receivers.filter fun x => ¬ x.2 ∨ i.refersTo x.1 }

inductive StartUp where
  | call
  /-- `@receiver(post_save, weak=weak) def r` in a module -/
  | define (r : Receiver) (weak : Bool)
  /-- the same in the function under way -/
  | defineLocal (r : Receiver) (weak : Bool)
  | ret
deriving DecidableEq, Repr

/-- `Signal.connect` -/
def Interpreter.connect (debug : Bool) (r : Receiver) (weak : Bool) (i : Interpreter) : Interpreter :=
  { i with
    cached := if debug then i.cached ++ [r] else i.cached
    receivers := i.receivers ++ [(r, weak)] }

def Interpreter.step (debug : Bool) (i : Interpreter) : StartUp → Interpreter
  | .call => { i with frames := [] :: i.frames }
  | .define r weak => { i with globals := i.globals ++ [r] }.connect debug r weak
  | .defineLocal r weak =>
    { i with
      frames := match i.frames with
        | [] => []
        | frame :: frames => (frame ++ [r]) :: frames }.connect debug r weak
  | .ret => { i with frames := i.frames.tail }.collect

def Interpreter.run (debug : Bool) (i : Interpreter) (ss : List StartUp) : Interpreter :=
  ss.foldl (Interpreter.step debug) i

/-- `AccountsConfig.ready`: the import runs the module -/
def AccountsConfig.ready : List StartUp := [.call, .define .createUserWallet true, .ret]

/-- a call of `setup_chat_signals` -/
def setupChatSignals : List StartUp := [.call, .defineLocal .createChatRoomOnAccept true, .ret]

def ChatConfig.ready : List StartUp := [.call] ++ setupChatSignals ++ [.ret]

def Interpreter.started (debug : Bool) : Interpreter :=
  (⟨[], [], [], []⟩ : Interpreter).run debug (AccountsConfig.ready ++ ChatConfig.ready)

/-- the signal calls the receiver -/
def Interpreter.Connected (i : Interpreter) (r : Receiver) : Prop := ∃ weak, (r, weak) ∈ i.receivers

/-- **A receiver defined in a function**, when nothing of the repository refers to it. -/
theorem local_receiver_iff (debug : Bool) (i : Interpreter) (r : Receiver) (hrefers : i.refersTo r = false)
    (hconnected : ¬ i.Connected r) :
    (i.run debug [.call, .defineLocal r true, .ret]).Connected r ↔ debug = true := by
  cases debug with
  | false =>
    refine iff_of_false ?_ Bool.false_ne_true
    rintro ⟨weak, hmem⟩
    have hmem' : (r, weak) ∈ (i.receivers ++ [(r, true)]).filter fun x => ¬ x.2 ∨ i.refersTo x.1 := hmem
    obtain ⟨hin, hkept⟩ := List.mem_filter.1 hmem'
    rcases List.mem_append.1 hin with hold | hnew
    · exact hconnected ⟨weak, hold⟩
    · cases List.mem_singleton.1 hnew
      simp [hrefers] at hkept
  | true =>
    refine iff_of_true ⟨true, ?_⟩ rfl
    refine List.mem_filter.2 ⟨List.mem_append_right _ (List.mem_singleton_self _), ?_⟩
    have hcached : r ∈ i.cached ++ [r] := List.mem_append_right _ (List.mem_singleton_self _)
    simp [Interpreter.refersTo, Interpreter.connect, Interpreter.step, hcached]

theorem started_receivers : ∀ debug, (Interpreter.started debug).receivers =
    (.createUserWallet, true) :: if debug then [(.createChatRoomOnAccept, true)] else [] := by decide

/-! ## The receiver -/

/-- `create_chat_room_on_accept`; `roomId` and `messageId` are the values of the sequences -/
def createChatRoomOnAccept (created : Bool) (job : Job) (roomId messageId : Pk) (now : Time) (chat : ChatSite) :
    Except Exc ChatSite :=
  match job.worker with
  | none => .ok chat
  | some worker =>
    if created = false ∧ job.status = .accepted then
      -- get_or_create
      if ∃ room ∈ chat.rooms.rows, room.job = job.id then .ok chat
      else if chat.rooms.find roomId = none ∧ ∀ m ∈ chat.messages, m.id ≠ messageId then
        .ok { chat with
          rooms := chat.rooms.insert ⟨roomId, job.id, job.employer, worker, true⟩
          messages := chat.messages ++ [⟨messageId, roomId, none, .system,
            s!"Job \"{job.title}\" accepted. You can now chat with each other.", false, none, now⟩] }
      else .error .databaseError
    else .ok chat

/-- a call of the receiver for a job; `createUserWallet` is connected for users only -/
def callReceiver (created : Bool) (job : Job) (roomId messageId : Pk) (now : Time) :
    Receiver → ChatSite → Except Exc ChatSite
  | .createUserWallet, chat => .ok chat
  | .createChatRoomOnAccept, chat => createChatRoomOnAccept created job roomId messageId now chat

/-- `post_save.send(sender=Job, instance=job, created=created)` -/
def Interpreter.postSaveJob (i : Interpreter) (created : Bool) (job : Job) (roomId messageId : Pk) (now : Time)
    (chat : ChatSite) : Except Exc ChatSite :=
  i.receivers.foldlM (fun chat x => callReceiver created job roomId messageId now x.1 chat) chat

/-! ## Calls -/

structure Backend where
  db : DB
  chat : ChatSite

inductive JobOp where
  | createJob (id : Pk) (employer : User) (data : JobData)
  | acceptJob (jobId : String) (worker : User)
  | startJob (jobId : String) (worker : User)
  | completeJob (jobId : String) (employer : User)
  | cancelJob (jobId : String) (user : User) (reason : String)

/-- a call, its time, and what the sequences would give the receiver -/
structure JobCall where
  op : JobOp
  now : Time
  roomId : Pk
  messageId : Pk

def JobCall.prog (E : Env) (call : JobCall) : Tx Job :=
  match call.op with
  | .createJob id employer data => JobService.createJob id employer data call.now
  | .acceptJob jobId worker => JobService.acceptJob E jobId worker call.now
  | .startJob jobId worker => JobService.startJob E jobId worker call.now
  | .completeJob jobId employer => JobService.completeJob E jobId employer call.now
  | .cancelJob jobId user reason => JobService.cancelJob E jobId user reason call.now

def JobOp.created : JobOp → Bool
  | .createJob .. => true
  | _ => false

def JobOp.accepts : JobOp → Bool
  | .acceptJob .. => true
  | _ => false

/-- a call; what it saves is what it returns -/
def Backend.step (E : Env) (i : Interpreter) (s : Backend) (call : JobCall) : Backend :=
  match exec store (call.prog E) s.db with
  | .error _ => s
  | .ok (job, db') =>
    match i.postSaveJob call.op.created job call.roomId call.messageId call.now s.chat with
    | .error _ => s
    | .ok chat' => ⟨db', chat'⟩

def Backend.run (E : Env) (i : Interpreter) (s : Backend) (calls : List JobCall) : Backend :=
  calls.foldl (Backend.step E i) s

/-! ## What a call saves -/

/-- the saved job is new, was accepted, or has moved on from acceptance with its worker -/
inductive SavedKind (op : JobOp) (db : DB) (job : Job) : Prop where
  | created (hop : op.created = true) (hno : op.accepts = false) (hfresh : db.jobs.find job.id = none)
      (hworker : job.worker = none)
  | accepted (hop : op.created = false) (hacc : op.accepts = true) (old : Job) (hold : db.jobs.find job.id = some old)
      (hstatus : old.status = .created) (hemployer : job.employer = old.employer) (hacc' : job.status = .accepted)
      (hworker : job.worker ≠ none)
  | moved (hop : op.created = false) (hno : op.accepts = false) (old : Job) (hold : db.jobs.find job.id = some old)
      (hemployer : job.employer = old.employer) (hacc : job.status ≠ .accepted) (hnew : job.status ≠ .created)
      (hworker : job.worker = old.worker)

structure Saved (op : JobOp) (db : DB) (job : Job) (db' : DB) : Prop where
  table : ∀ k, db'.jobs.find k = if job.id = k then some job else db.jobs.find k
  kind : SavedKind op db job

section Saved

variable {E : Env} {db db' : DB} {job old : Job} {call : JobCall}

theorem find_update_saved {f : Job → Job} (hold : db.jobs.find old.id = some old) (hjob : f old = job)
    (hid : job.id = old.id) (k : Pk) :
    (db.jobs.update old.id f).find k = if job.id = k then some job else db.jobs.find k := by
  by_cases hk : old.id = k
  · subst hk
    rw [if_pos hid, Table.find_update_self hold (by rw [hjob]; exact hid), hjob]
  · rw [if_neg (by rw [hid]; exact hk), Table.find_update_ne hk]

/-- **What a call saves**, if it succeeds. -/
theorem saved_cases (h : exec store (call.prog E) db = .ok (job, db')) : Saved call.op db job db' := by
  obtain ⟨op, now, roomId, messageId⟩ := call
  cases op with
  | createJob id employer data =>
    obtain ⟨-, rfl, -, -, hfresh, w, -, -, -, rfl⟩ := runs_createJob.1 h
    refine ⟨fun k => ?_, .created rfl rfl hfresh rfl⟩
    simp only [Table.find_insert, pk_job]
    by_cases hk : (newJob id employer data now).id = k
    · subst hk
      rw [if_pos rfl, if_pos rfl, show (newJob id employer data now).id = id from rfl, hfresh, Option.getD_none]
    · rw [if_neg hk, if_neg hk]
  | acceptJob jobId worker =>
    obtain ⟨j, hj, -, hstatus, -, -, rfl, rfl⟩ := runs_acceptJob.1 h
    refine ⟨find_update_saved hj.row rfl rfl, .accepted rfl rfl j hj.row hstatus rfl rfl ?_⟩
    exact Option.some_ne_none _
  | startJob jobId worker =>
    obtain ⟨j, hj, -, -, rfl, rfl⟩ := runs_startJob.1 h
    exact ⟨find_update_saved hj.row rfl rfl, .moved rfl rfl j hj.row rfl (by simp) (by simp) rfl⟩
  | completeJob jobId employer =>
    obtain ⟨j, we, worker, ww, hj, -, -, -, -, -, -, -, rfl, rfl⟩ := runs_completeJob.1 h
    exact ⟨find_update_saved hj.row rfl rfl, .moved rfl rfl j hj.row rfl (by simp) (by simp) rfl⟩
  | cancelJob jobId user reason =>
    obtain ⟨j, w, hj, -, -, -, -, rfl, rfl⟩ := runs_cancelJob.1 h
    exact ⟨find_update_saved hj.row rfl rfl, .moved rfl rfl j hj.row rfl (by simp) (by simp) rfl⟩

end Saved

/-! ## What the signal does -/

section Signal

variable {created : Bool} {job : Job} {roomId messageId : Pk} {now : Time} {chat chat' : ChatSite} {i : Interpreter}

/-- the chat with a room for the job and its first message -/
def opened (job : Job) (worker roomId messageId : Pk) (now : Time) (chat : ChatSite) : ChatSite :=
  { chat with
    rooms := chat.rooms.insert ⟨roomId, job.id, job.employer, worker, true⟩
    messages := chat.messages ++ [⟨messageId, roomId, none, .system,
      s!"Job \"{job.title}\" accepted. You can now chat with each other.", false, none, now⟩] }

/-- what the receiver does -/
inductive RoomEffect (created : Bool) (job : Job) (roomId messageId : Pk) (now : Time) (chat chat' : ChatSite) : Prop
  where
  | none (hsame : chat' = chat) (hno : created = true ∨ job.status ≠ .accepted ∨ job.worker = none)
  | found (hsame : chat' = chat) (room : ChatRoom) (hroom : room ∈ chat.rooms.rows) (hjob : room.job = job.id)
  | opened (worker : Pk) (hworker : job.worker = some worker) (hno : ∀ room ∈ chat.rooms.rows, room.job ≠ job.id)
      (hfresh : chat.rooms.find roomId = Option.none) (hopened : chat' = opened job worker roomId messageId now chat)

theorem receiver_cases (h : createChatRoomOnAccept created job roomId messageId now chat = .ok chat') :
    RoomEffect created job roomId messageId now chat chat' := by
  unfold createChatRoomOnAccept at h
  cases hworker : job.worker with
  | none =>
    rw [hworker] at h
    cases h
    exact .none rfl (Or.inr (Or.inr hworker))
  | some worker =>
    rw [hworker] at h
    dsimp only at h
    split_ifs at h with hguard hfound hfresh
    · cases h
      obtain ⟨room, hroom, hjob⟩ := hfound
      exact .found rfl room hroom hjob
    · cases h
      refine .opened worker hworker ?_ hfresh.1 rfl
      intro room hroom hjob
      exact hfound ⟨room, hroom, hjob⟩
    · cases h
      refine .none rfl ?_
      by_cases hcreated : created = false
      · exact Or.inr (Or.inl fun hstatus => hguard ⟨hcreated, hstatus⟩)
      · exact Or.inl (by simpa using hcreated)

/-- called again, it finds the room -/
theorem receiver_again (h : createChatRoomOnAccept created job roomId messageId now chat = .ok chat') :
    createChatRoomOnAccept created job roomId messageId now chat' = .ok chat' := by
  cases receiver_cases h with
  | none hsame hno => rw [hsame] at h ⊢; exact h
  | found hsame room hroom hjob => rw [hsame] at h ⊢; exact h
  | opened worker hworker hno hfresh hopened =>
    have hexists : ∃ room ∈ chat'.rooms.rows, room.job = job.id := by
      refine ⟨⟨roomId, job.id, job.employer, worker, true⟩, ?_, rfl⟩
      rw [hopened, opened, Table.mem_insert hfresh]
      exact Or.inr rfl
    unfold createChatRoomOnAccept
    rw [hworker]
    dsimp only
    split_ifs
    · rfl
    · rfl

/-- a signal of receivers that are not this one -/
theorem postSaveJob_of_not_connected (h : ¬ i.Connected .createChatRoomOnAccept) :
    i.postSaveJob created job roomId messageId now chat = .ok chat := by
  have hnot : ∀ x ∈ i.receivers, x.1 ≠ .createChatRoomOnAccept := by
    rintro ⟨r, weak⟩ hx rfl
    exact h ⟨weak, hx⟩
  unfold Interpreter.postSaveJob
  generalize i.receivers = receivers at hnot
  induction receivers with
  | nil => rfl
  | cons x xs ih =>
    have hrest := ih fun y hy => hnot y (List.mem_cons_of_mem _ hy)
    obtain ⟨r, weak⟩ := x
    cases r with
    | createUserWallet => exact hrest
    | createChatRoomOnAccept => exact absurd rfl (hnot _ List.mem_cons_self)

/-- however often it is connected, it acts once -/
theorem postSaveJob_of_connected (h : i.Connected .createChatRoomOnAccept) :
    i.postSaveJob created job roomId messageId now chat =
      createChatRoomOnAccept created job roomId messageId now chat := by
  have hagain : ∀ (receivers : List (Receiver × Bool)) (c : ChatSite),
      createChatRoomOnAccept created job roomId messageId now c = .ok c →
      receivers.foldlM (fun c x => callReceiver created job roomId messageId now x.1 c) c = .ok c := by
    intro receivers c hc
    induction receivers with
    | nil => rfl
    | cons x xs ih =>
      have hhead : callReceiver created job roomId messageId now x.1 c = .ok c := by
        cases x.1 with
        | createUserWallet => rfl
        | createChatRoomOnAccept => exact hc
      rw [List.foldlM_cons, hhead]
      exact ih
  obtain ⟨weak, hmem⟩ := h
  unfold Interpreter.postSaveJob
  generalize i.receivers = receivers at hmem
  induction receivers with
  | nil => cases hmem
  | cons x xs ih =>
    rw [List.foldlM_cons]
    obtain ⟨r, weak'⟩ := x
    cases r with
    | createUserWallet =>
      have hrest : (Receiver.createChatRoomOnAccept, weak) ∈ xs := by simpa using hmem
      exact ih hrest
    | createChatRoomOnAccept =>
      change (createChatRoomOnAccept created job roomId messageId now chat).bind _ = _
      cases hfirst : createChatRoomOnAccept created job roomId messageId now chat with
      | error e => rfl
      | ok chat' => exact hagain xs chat' (receiver_again hfirst)

end Signal

/-! ## The law -/

/-- the system messages of a room -/
def systemMessages (chat : ChatSite) (roomId : Pk) : List Message :=
  chat.messages.filter fun m => m.room = roomId ∧ m.messageType = .system

/-- a job's room -/
structure RoomFor (chat : ChatSite) (job : Job) : Prop where
  iff : (∃ room ∈ chat.rooms.rows, room.job = job.id) ↔ job.worker ≠ none
  one : ∀ room ∈ chat.rooms.rows, ∀ room' ∈ chat.rooms.rows, room.job = job.id → room'.job = job.id → room = room'
  parties : ∀ room ∈ chat.rooms.rows, room.job = job.id → room.employer = job.employer ∧ job.worker = some room.worker
  greeting : ∀ room ∈ chat.rooms.rows, room.job = job.id → (systemMessages chat room.id).length = 1

/-- every accepted job has its chat room, and only those -/
def RoomsMatch (s : Backend) : Prop := ∀ job ∈ s.db.jobs.rows, RoomFor s.chat job

/-- with what makes it inductive: a job that waits for a worker has none; rooms are of jobs, messages are in rooms -/
structure RoomInv (s : Backend) : Prop where
  rooms : ∀ k job, s.db.jobs.find k = some job → RoomFor s.chat job
  waiting : ∀ k job, s.db.jobs.find k = some job → job.status = .created → job.worker = none
  known : ∀ room ∈ s.chat.rooms.rows, (s.db.jobs.find room.job).isSome
  placed : ∀ m ∈ s.chat.messages, (s.chat.rooms.find m.room).isSome

section Law

variable {E : Env} {i : Interpreter} {s : Backend} {call : JobCall} {calls : List JobCall} {db' : DB} {job : Job}
  {chat' : ChatSite}

theorem RoomInv.match (h : RoomInv s) : RoomsMatch s := by
  intro job hjob
  exact h.rooms job.id job (by rw [← pk_job, Table.find_of_mem hjob])

/-- a job without a room, and without a worker -/
theorem roomFor_none {chat : ChatSite} (hno : ∀ room ∈ chat.rooms.rows, room.job ≠ job.id)
    (hworker : job.worker = none) : RoomFor chat job := by
  refine ⟨⟨?_, fun h => absurd hworker h⟩, ?_, ?_, ?_⟩
  · rintro ⟨room, hroom, hjob⟩
    exact absurd hjob (hno room hroom)
  · intro room hroom _ _ hjob
    exact absurd hjob (hno room hroom)
  · intro room hroom hjob
    exact absurd hjob (hno room hroom)
  · intro room hroom hjob
    exact absurd hjob (hno room hroom)

/-- the room's job has moved on -/
theorem RoomFor.moved {chat : ChatSite} {old : Job} (h : RoomFor chat old) (hid : job.id = old.id)
    (hemployer : job.employer = old.employer) (hworker : job.worker = old.worker) : RoomFor chat job := by
  obtain ⟨hiff, hone, hparties, hgreeting⟩ := h
  refine ⟨?_, ?_, ?_, ?_⟩
  · rw [hid, hworker]
    exact hiff
  · rw [hid]
    exact hone
  · rw [hid, hemployer, hworker]
    exact hparties
  · rw [hid]
    exact hgreeting

/-! ## With the receiver connected -/

/-- the accepted job's room is opened -/
theorem roomFor_opened {worker roomId messageId : Pk} {now : Time} {chat : ChatSite}
    (hworker : job.worker = some worker) (hno : ∀ room ∈ chat.rooms.rows, room.job ≠ job.id)
    (hfresh : chat.rooms.find roomId = none)
    (hplaced : ∀ m ∈ chat.messages, (chat.rooms.find m.room).isSome) :
    RoomFor (opened job worker roomId messageId now chat) job := by
  have hrooms : ∀ room, room ∈ (opened job worker roomId messageId now chat).rooms.rows → room.job = job.id →
      room = ⟨roomId, job.id, job.employer, worker, true⟩ := by
    intro room hroom hjob
    rcases (Table.mem_insert hfresh).1 hroom with hold | hnew
    · exact absurd hjob (hno room hold)
    · exact hnew
  refine ⟨⟨fun _ => ?_, fun _ => ?_⟩, ?_, ?_, ?_⟩
  · rw [hworker]
    exact Option.some_ne_none _
  · exact ⟨_, (Table.mem_insert hfresh).2 (Or.inr rfl), rfl⟩
  · intro room hroom room' hroom' hjob hjob'
    rw [hrooms room hroom hjob, hrooms room' hroom' hjob']
  · intro room hroom hjob
    rw [hrooms room hroom hjob]
    exact ⟨rfl, hworker⟩
  · intro room hroom hjob
    rw [hrooms room hroom hjob]
    have hnone : chat.messages.filter (fun m => m.room = roomId ∧ m.messageType = .system) = [] := by
      rw [List.filter_eq_nil_iff]
      intro m hm hroom'
      have hsome := hplaced m hm
      simp only [decide_eq_true_eq] at hroom'
      rw [hroom'.1, hfresh] at hsome
      cases hsome
    unfold systemMessages opened
    rw [List.filter_append, hnone]
    simp

/-- the other jobs' rooms -/
theorem RoomFor.opened {worker roomId messageId : Pk} {now : Time} {chat : ChatSite} {other : Job}
    (h : RoomFor chat other) (hne : other.id ≠ job.id) (hfresh : chat.rooms.find roomId = none) :
    RoomFor (opened job worker roomId messageId now chat) other := by
  have hrooms : ∀ room, room.job = other.id →
      (room ∈ (GigMarketplace.opened job worker roomId messageId now chat).rooms.rows ↔ room ∈ chat.rooms.rows) := by
    intro room hjob
    refine (Table.mem_insert hfresh).trans ⟨?_, Or.inl⟩
    rintro (hold | rfl)
    · exact hold
    · exact absurd hjob.symm hne
  refine ⟨?_, ?_, ?_, ?_⟩
  · rw [← h.iff]
    constructor
    · rintro ⟨room, hroom, hjob⟩
      exact ⟨room, (hrooms room hjob).1 hroom, hjob⟩
    · rintro ⟨room, hroom, hjob⟩
      exact ⟨room, (hrooms room hjob).2 hroom, hjob⟩
  · intro room hroom room' hroom' hjob hjob'
    exact h.one room ((hrooms room hjob).1 hroom) room' ((hrooms room' hjob').1 hroom') hjob hjob'
  · intro room hroom hjob
    exact h.parties room ((hrooms room hjob).1 hroom) hjob
  · intro room hroom hjob
    have hin := (hrooms room hjob).1 hroom
    have hid : roomId ≠ room.id := by
      intro he
      have hfind := Table.find_of_mem hin
      rw [pk_room, ← he, hfresh] at hfind
      cases hfind
    have hsame : systemMessages (GigMarketplace.opened job worker roomId messageId now chat) room.id =
        systemMessages chat room.id := by
      unfold systemMessages GigMarketplace.opened
      rw [List.filter_append]
      simp [hid]
    rw [hsame]
    exact h.greeting room hin hjob

/-- a call whose save left the rooms as they were -/
theorem RoomInv.unchanged (h : RoomInv s) (hsaved : Saved call.op s.db job db') (hroom : RoomFor s.chat job)
    (hwaiting : job.status = .created → job.worker = none) : RoomInv ⟨db', s.chat⟩ := by
  refine ⟨?_, ?_, ?_, h.placed⟩
  · intro k job' hfind
    rw [hsaved.table] at hfind
    split_ifs at hfind
    · cases hfind
      exact hroom
    · exact h.rooms k job' hfind
  · intro k job' hfind
    rw [hsaved.table] at hfind
    split_ifs at hfind
    · cases hfind
      exact hwaiting
    · exact h.waiting k job' hfind
  · intro room hin
    rw [hsaved.table]
    split_ifs
    · rfl
    · exact h.known room hin

/-- a job that was not there has no room -/
theorem RoomInv.fresh (h : RoomInv s) (hfresh : s.db.jobs.find job.id = none) :
    ∀ room ∈ s.chat.rooms.rows, room.job ≠ job.id := by
  intro room hin hjob
  have hknown := h.known room hin
  rw [hjob, hfresh] at hknown
  cases hknown

/-- a call whose save opened the job's room -/
theorem RoomInv.opened {worker roomId messageId : Pk} {now : Time} (h : RoomInv s)
    (hsaved : Saved call.op s.db job db') (hstatus : job.status ≠ .created) (hworker : job.worker = some worker)
    (hno : ∀ room ∈ s.chat.rooms.rows, room.job ≠ job.id) (hfresh : s.chat.rooms.find roomId = none) :
    RoomInv ⟨db', GigMarketplace.opened job worker roomId messageId now s.chat⟩ := by
  refine ⟨?_, ?_, ?_, ?_⟩
  · intro k job' hfind
    rw [hsaved.table] at hfind
    split_ifs at hfind with hk
    · cases hfind
      exact roomFor_opened hworker hno hfresh h.placed
    · have hid' : job'.id = k := Table.pk_of_find hfind
      exact (h.rooms k job' hfind).opened (fun he => hk (by rw [← he, hid'])) hfresh
  · intro k job' hfind hcreated
    rw [hsaved.table] at hfind
    split_ifs at hfind with hk
    · cases hfind
      exact absurd hcreated hstatus
    · exact h.waiting k job' hfind hcreated
  · intro room hin
    rw [hsaved.table]
    split_ifs with hk
    · rfl
    · rcases (Table.mem_insert hfresh).1 hin with hold' | rfl
      · exact h.known room hold'
      · exact absurd rfl hk
  · intro m hm
    change ((s.chat.rooms.insert _).find m.room).isSome
    rw [Table.find_insert]
    split_ifs with hk
    · rfl
    · rcases List.mem_append.1 hm with hold' | hnew
      · exact h.placed m hold'
      · rw [List.mem_singleton.1 hnew] at hk
        exact absurd rfl hk

/-- a call that succeeds, with the receiver called -/
theorem RoomInv.saved (h : RoomInv s) (hsaved : Saved call.op s.db job db')
    (hroom : RoomEffect call.op.created job call.roomId call.messageId call.now s.chat chat') :
    RoomInv ⟨db', chat'⟩ := by
  cases hsaved.kind with
  | created hop hno hfresh hworker =>
    have hsame : chat' = s.chat := by
      cases hroom with
      | none hsame _ => exact hsame
      | found hsame _ _ _ => exact hsame
      | opened worker hsome _ _ _ =>
        rw [hworker] at hsome
        cases hsome
    rw [hsame]
    exact h.unchanged hsaved (roomFor_none (h.fresh hfresh) hworker) fun _ => hworker
  | moved hop hno old hold hemployer hacc hnew hworker =>
    have hid : job.id = old.id := (Table.pk_of_find hold).symm
    have hroomFor : RoomFor s.chat job := (h.rooms _ old hold).moved hid hemployer hworker
    have hsame : chat' = s.chat := by
      cases hroom with
      | none hsame _ => exact hsame
      | found hsame _ _ _ => exact hsame
      | opened worker hsome hno' _ _ =>
        -- the room of a job with a worker is there
        obtain ⟨room, hin, hjob⟩ := hroomFor.iff.2 (by rw [hsome]; exact Option.some_ne_none _)
        exact absurd hjob (hno' room hin)
    rw [hsame]
    exact h.unchanged hsaved hroomFor fun hcreated => absurd hcreated hnew
  | accepted hop hacc old hold hstatus hemployer hacc' hworker =>
    have hid : job.id = old.id := (Table.pk_of_find hold).symm
    have hroomFor : RoomFor s.chat old := h.rooms _ old hold
    cases hroom with
    | none hsame hno =>
      rcases hno with hcreated | hnot | hnone
      · rw [hop] at hcreated
        cases hcreated
      · exact absurd hacc' hnot
      · exact absurd hnone hworker
    | found hsame room hin hjob =>
      have hwaiting : old.worker = none := h.waiting _ old hold hstatus
      exact absurd hwaiting (hroomFor.iff.1 ⟨room, hin, by rw [hjob, hid]⟩)
    | opened worker hsome hno hfresh hopened =>
      rw [hopened]
      refine h.opened hsaved ?_ hsome hno hfresh
      rw [hacc']
      exact JobStatus.noConfusion

theorem RoomInv.step (h : RoomInv s) (hconnected : i.Connected .createChatRoomOnAccept) (call : JobCall) :
    RoomInv (s.step E i call) := by
  unfold Backend.step
  cases hexec : exec store (call.prog E) s.db with
  | error e => exact h
  | ok x =>
    obtain ⟨job, db'⟩ := x
    dsimp only
    rw [postSaveJob_of_connected hconnected]
    cases hcall : createChatRoomOnAccept call.op.created job call.roomId call.messageId call.now s.chat with
    | error e => exact h
    | ok chat' => exact h.saved (saved_cases hexec) (receiver_cases hcall)

/-- before the first job -/
theorem roomInv_empty (hjobs : s.db.jobs.rows = []) (hrooms : s.chat.rooms.rows = [])
    (hmessages : s.chat.messages = []) :
    RoomInv s := by
  have hnone : ∀ k, s.db.jobs.find k = none := by
    intro k
    rw [Table.find_eq_none, hjobs]
    intro job hjob
    cases hjob
  refine ⟨?_, ?_, ?_, ?_⟩
  · intro k job hfind
    rw [hnone] at hfind
    cases hfind
  · intro k job hfind
    rw [hnone] at hfind
    cases hfind
  · rw [hrooms]
    intro room hroom
    cases hroom
  · rw [hmessages]
    intro m hm
    cases hm

/-- **A connected receiver** gives every accepted job its room. -/
theorem rooms_match_of_connected (E : Env) (i : Interpreter) (hconnected : i.Connected .createChatRoomOnAccept)
    (hs : RoomInv s) (calls : List JobCall) : RoomsMatch (s.run E i calls) := by
  have hinv : RoomInv (s.run E i calls) := by
    induction calls generalizing s with
    | nil => exact hs
    | cons call calls ih => exact ih (hs.step hconnected call)
  exact hinv.match

/-! ## With the receiver gone -/

/-- a call of accept_job in the run succeeds -/
def AcceptSucceeds (E : Env) (i : Interpreter) : Backend → List JobCall → Prop
  | _, [] => False
  | s, call :: calls =>
    (call.op.accepts = true ∧ ∃ x, exec store (call.prog E) s.db = .ok x) ∨ AcceptSucceeds E i (s.step E i call) calls

/-- a job with a worker and no room -/
def Roomless (s : Backend) : Prop :=
  ∃ k job, s.db.jobs.find k = some job ∧ job.worker ≠ none ∧ ∀ room ∈ s.chat.rooms.rows, room.job ≠ job.id

theorem Roomless.not_match (h : Roomless s) : ¬ RoomsMatch s := by
  obtain ⟨k, job, hfind, hworker, hno⟩ := h
  intro hmatch
  obtain ⟨room, hroom, hjob⟩ := (hmatch job (Table.mem_of_find hfind)).iff.2 hworker
  exact hno room hroom hjob

/-- a worker stays -/
theorem Roomless.saved (h : Roomless s) (hsaved : Saved call.op s.db job db') : Roomless ⟨db', s.chat⟩ := by
  obtain ⟨k, job', hfind, hworker, hno⟩ := h
  have hid : job'.id = k := Table.pk_of_find hfind
  by_cases hk : job.id = k
  · refine ⟨k, job, ?_, ?_, ?_⟩
    · rw [hsaved.table, if_pos hk]
    · cases hsaved.kind with
      | created hop hno' hfresh hw =>
        rw [hk, hfind] at hfresh
        cases hfresh
      | accepted hop hacc old hold hstatus hemployer hacc' hw => exact hw
      | moved hop hno' old hold hemployer hacc hnew hw =>
        rw [hk, hfind] at hold
        cases hold
        rw [hw]
        exact hworker
    · rw [hk, ← hid]
      exact hno
  · refine ⟨k, job', ?_, hworker, hno⟩
    rw [hsaved.table, if_neg hk]
    exact hfind

/-- a call that succeeds, without the receiver -/
theorem RoomInv.saved_gone (h : RoomInv s) (hsaved : Saved call.op s.db job db') :
    (call.op.accepts = false → RoomInv ⟨db', s.chat⟩) ∧ (call.op.accepts = true → Roomless ⟨db', s.chat⟩) := by
  cases hsaved.kind with
  | created hop hno hfresh hworker =>
    refine ⟨fun _ => h.unchanged hsaved (roomFor_none (h.fresh hfresh) hworker) fun _ => hworker, ?_⟩
    intro hacc
    rw [hno] at hacc
    cases hacc
  | moved hop hno old hold hemployer hacc hnew hworker =>
    have hid : job.id = old.id := (Table.pk_of_find hold).symm
    refine ⟨fun _ => ?_, ?_⟩
    · exact h.unchanged hsaved ((h.rooms _ old hold).moved hid hemployer hworker) fun hcreated => absurd hcreated hnew
    · intro hacc
      rw [hno] at hacc
      cases hacc
  | accepted hop hacc old hold hstatus hemployer hacc' hworker =>
    refine ⟨fun hno => ?_, fun _ => ⟨job.id, job, ?_, hworker, ?_⟩⟩
    · rw [hacc] at hno
      cases hno
    · rw [hsaved.table, if_pos rfl]
    · intro room hin hjob
      have hid : job.id = old.id := (Table.pk_of_find hold).symm
      exact (h.rooms _ old hold).iff.1 ⟨room, hin, by rw [hjob, hid]⟩ (h.waiting _ old hold hstatus)

theorem run_roomless (hgone : ¬ i.Connected .createChatRoomOnAccept) (h : Roomless s) (calls : List JobCall) :
    Roomless (s.run E i calls) := by
  induction calls generalizing s with
  | nil => exact h
  | cons call calls ih =>
    apply ih
    unfold Backend.step
    cases hexec : exec store (call.prog E) s.db with
    | error e => exact h
    | ok x =>
      dsimp only
      rw [postSaveJob_of_not_connected hgone]
      exact h.saved (saved_cases hexec)

theorem run_gone (hgone : ¬ i.Connected .createChatRoomOnAccept) (h : RoomInv s) (calls : List JobCall) :
    RoomsMatch (s.run E i calls) ↔ ¬ AcceptSucceeds E i s calls := by
  induction calls generalizing s with
  | nil => exact iff_of_true h.match id
  | cons call calls ih =>
    have hrun : s.run E i (call :: calls) = (s.step E i call).run E i calls := rfl
    rw [hrun]
    unfold AcceptSucceeds
    rw [not_or]
    cases hexec : exec store (call.prog E) s.db with
    | error e =>
      have hstep : s.step E i call = s := by simp only [Backend.step, hexec]
      rw [hstep, ih h]
      refine (and_iff_right ?_).symm
      rintro ⟨-, x, hx⟩
      cases hx
    | ok x =>
      obtain ⟨job, db'⟩ := x
      have hstep : s.step E i call = ⟨db', s.chat⟩ := by
        simp only [Backend.step, hexec, postSaveJob_of_not_connected hgone]
      obtain ⟨hkeeps, hlacks⟩ := h.saved_gone (saved_cases hexec)
      cases hacc : call.op.accepts with
      | true =>
        have hroomless : Roomless (s.step E i call) := by
          rw [hstep]
          exact hlacks hacc
        refine iff_of_false (run_roomless hgone hroomless calls).not_match ?_
        rintro ⟨hno, -⟩
        exact hno ⟨rfl, _, rfl⟩
      | false =>
        have hinv : RoomInv (s.step E i call) := by
          rw [hstep]
          exact hkeeps hacc
        rw [ih hinv]
        refine (and_iff_right ?_).symm
        rintro ⟨hyes, -⟩
        cases hyes

theorem started_connected (debug : Bool) :
    (Interpreter.started debug).Connected .createChatRoomOnAccept ↔ debug = true := by
  unfold Interpreter.Connected
  rw [started_receivers]
  cases debug <;> simp

end Law

/-- **Every accepted job has its chat room**, in a run after the start-up, exactly if DEBUG is on or no accept_job
succeeds in it. -/
theorem chat_rooms_iff (E : Env) (s : Backend) (hs : RoomInv s) (calls : List JobCall) :
    RoomsMatch (s.run E (.started E.debug) calls) ↔
      (E.debug = true ∨ ¬ AcceptSucceeds E (.started E.debug) s calls) := by
  by_cases hdebug : E.debug = true
  · exact iff_of_true (rooms_match_of_connected E _ ((started_connected _).2 hdebug) hs calls) (Or.inl hdebug)
  · rw [run_gone (fun h => hdebug ((started_connected _).1 h)) hs calls, or_iff_right hdebug]

/-- the employer has paid in; no jobs yet -/
def demoBackend : Backend where
  db := run demoEnv (init demoUsers) [.initiateDeposit 1 demoEmployer 500000 "payme" "", .confirmDeposit (.int 1) ""]
  chat := ⟨.empty, [], fun _ => none, [], [], []⟩

def demoCreated : JobCall := ⟨.createJob 1 demoEmployer demoJob, 0, 1, 1⟩

def demoAccepted : List JobCall := [demoCreated, ⟨.acceptJob "1" demoWorker, 1, 1, 1⟩]

/-- the shipped settings of development -/
def demoDebug : Env := { demoEnv with debug := true }

/-- with DEBUG the accepted job has its room, without it has none -/
theorem chat_rooms_iff_demo :
    RoomsMatch (demoBackend.run demoDebug (.started true) demoAccepted) ∧
      ¬ RoomsMatch (demoBackend.run demoEnv (.started false) demoAccepted) := by
  have hempty : RoomInv demoBackend := roomInv_empty (by decide +kernel) rfl rfl
  have haccepts : (exec store ((⟨.acceptJob "1" demoWorker, 1, 1, 1⟩ : JobCall).prog demoEnv)
      (demoBackend.step demoEnv (.started false) demoCreated).db).toOption.isSome = true := by decide +kernel
  refine ⟨(chat_rooms_iff demoDebug demoBackend hempty demoAccepted).2 (Or.inl rfl), fun hmatch => ?_⟩
  rcases (chat_rooms_iff demoEnv demoBackend hempty demoAccepted).1 hmatch with hdebug | hnone
  · cases hdebug
  · refine hnone (Or.inr (Or.inl ⟨rfl, ?_⟩))
    cases hexec : exec store ((⟨.acceptJob "1" demoWorker, 1, 1, 1⟩ : JobCall).prog demoEnv)
        (demoBackend.step demoEnv (.started false) demoCreated).db with
    | error e =>
      rw [hexec] at haccepts
      cases haccepts
    | ok x => exact ⟨x, hexec⟩

/-- without DEBUG the job has its worker and no room -/
theorem accepted_without_room :
    demoEnv.debug = false ∧
      ((demoBackend.run demoEnv (.started false) demoAccepted).db.jobs.find 1).map Job.worker = some (some 2) ∧
      (demoBackend.run demoEnv (.started false) demoAccepted).chat.rooms.rows = [] := by
  decide +kernel

/-- had `setup_chat_signals` connected it strongly -/
example : (demoBackend.run demoEnv ((⟨[], [], [], []⟩ : Interpreter).run false
    [.call, .defineLocal .createChatRoomOnAccept false, .ret]) demoAccepted).chat.rooms.rows = [⟨1, 1, 1, 2, true⟩] := by
  decide +kernel

end GigMarketplace
