/-
`apps/chat`: rooms and messages, the WebSocket consumer of `consumers.py` and the REST fallback of `views.py`.

No transaction is opened, so every query and every use of the channel layer is a statement of its own
(`Core/Threads.lean`). A connection is a number; the URL and the user it came with (its scope) stay the same,
`self.room` is set when connect has let the user in. What the handlers of group events then write to the members'
sockets is left out: `events` holds what was sent to a group, `frames` what a consumer has answered on its own
connection.

`json.loads` is a parameter. Left out: the log messages, images, and the columns of a room that nothing here reads.
-/
import GigMarketplace.Accounts
import GigMarketplace.Core.Keeps
import GigMarketplace.Rest

namespace GigMarketplace

open GigMarketplace.Core

/-! ## Rows -/

structure ChatRoom where
  id : Pk
  job : Pk
  employer : Pk
  worker : Pk
  isActive : Bool
deriving DecidableEq, Repr

instance : Keyed ChatRoom Pk := ⟨ChatRoom.id, fun room k => { room with id := k }, fun _ _ => rfl, fun _ => rfl⟩

@[simp] theorem pk_room (room : ChatRoom) : pk room = room.id := rfl

/-- `user in (self.employer, self.worker)` -/
def ChatRoom.isParticipant (room : ChatRoom) (user : Pk) : Bool := user = room.employer ∨ user = room.worker

inductive MessageType where
  | text
  | image
  | system
deriving DecidableEq, Repr

structure Message where
  id : Pk
  room : Pk
  /-- none for system messages -/
  sender : Option Pk
  messageType : MessageType
  content : String
  isRead : Bool
  readAt : Option Time
  createdAt : Time
deriving DecidableEq, Repr

/-- a row of accounts_users, as far as the chat reads it -/
structure ChatUser where
  id : Pk
  displayName : String
deriving DecidableEq, Repr

/-! ## Channel layer -/

/-- what is sent to a group -/
inductive ChatEvent where
  | chatMessage (id senderId : Pk) (senderName content : String) (createdAt : Time)
  | typingIndicator (userId : Pk) (userName : String) (isTyping : Json)
  | readReceipt (userId : Pk)

/-- what a consumer answers on its own connection -/
inductive ServerFrame where
  | accept
  | close (code : ℕ)
  | error (message : String)
deriving DecidableEq, Repr

structure Scope where
  /-- of the URL -/
  roomId : String
  /-- none: not authenticated -/
  user : Option ChatUser

/-- what `json.loads` makes of a text -/
inductive Loads where
  | value (v : Json)
  | decodeError
  | raised (e : Exc)

structure ChatEnv where
  py : Py
  loads : String → Loads
  scope : ℕ → Scope

structure ChatSite where
  rooms : Table ChatRoom
  messages : List Message
  /-- `self.room` of each connection's consumer -/
  joined : ℕ → Option ChatRoom
  /-- the members of the groups -/
  groups : List (String × ℕ)
  events : List (String × ChatEvent)
  frames : List (ℕ × ServerFrame)

abbrev ChatCall := Code ChatSite Failure

/-- INSERT of a message; psycopg refuses a null character -/
def Message.create (m : Message) : ChatCall Message :=
  .act fun s =>
    if hasNull m.content then .error (.exc .valueError)
    else if ∃ m' ∈ s.messages, m'.id = m.id then .error (.exc .databaseError)
    else .ok (m, { s with messages := s.messages ++ [m] })

/-! ## ChatConsumer -/

namespace ChatConsumer

variable (E : ChatEnv) (c : ℕ)

/-- `self.room_group_name` -/
def roomGroupName : String := "chat_" ++ (E.scope c).roomId

def send (frame : ServerFrame) : ChatCall Unit := .act fun s => .ok ((), { s with frames := s.frames ++ [(c, frame)] })

def sendError (message : String) : ChatCall Unit := send c (.error message)

def groupAdd : ChatCall Unit := .act fun s => .ok ((), { s with groups := s.groups ++ [(roomGroupName E c, c)] })

def groupDiscard : ChatCall Unit :=
  .act fun s => .ok ((), { s with groups := s.groups.filter fun g => g ≠ (roomGroupName E c, c) })

def groupSend (event : ChatEvent) : ChatCall Unit :=
  .act fun s => .ok ((), { s with events := s.events ++ [(roomGroupName E c, event)] })

/-- `_get_room`: an id that is no integer raises ValueError -/
def getRoom (roomId : String) : ChatCall (Option ChatRoom) :=
  .query fun s =>
    match E.py.int roomId with
    | none => .error (.exc .valueError)
    | some id => .ok ((s.rooms.find id).filter fun room => room.isActive)

/-- `self.room`; an AttributeError where connect has not set it -/
def room : ChatCall ChatRoom :=
  .query fun s =>
    match s.joined c with
    | none => .error (.exc .attributeError)
    | some room => .ok room

/-- `self.user`, where an attribute of it is read that only a User has -/
def user : ChatCall ChatUser := .ofExcept ((E.scope c).user.elim (.error (.exc .attributeError)) .ok)

def connect : ChatCall Unit :=
  match (E.scope c).user with
  | none => send c (.close 4001)
  | some user => do
    let room ← getRoom E (E.scope c).roomId
    match room with
    | none => send c (.close 4003)
    | some room =>
      if room.isParticipant user.id then do
        Code.act fun s => .ok ((), { s with joined := Function.update s.joined c (some room) })
        groupAdd E c
        send c .accept
      else send c (.close 4003)

def disconnect : ChatCall Unit := groupDiscard E c

/-- `_save_message` -/
def saveMessage (content : String) (id : Pk) (now : Time) : ChatCall Message := do
  let room ← room c
  let user ← user E c
  Message.create { id, room := room.id, sender := some user.id, messageType := .text, content, isRead := false,
                   readAt := none, createdAt := now }

/-- the rest of `handle_chat_message`, for the text without white space around it -/
def handleContent (content : String) (id : Pk) (now : Time) : ChatCall Unit :=
  if content = "" then return ()
  else if 2000 < content.length then sendError c "Message too long (max 2000 chars)"
  else do
    let message ← saveMessage E c content id now
    let user ← user E c
    groupSend E c (.chatMessage message.id user.id user.displayName message.content message.createdAt)

def handleChatMessage (data : Json) (id : Pk) (now : Time) : ChatCall Unit := do
  let content ← Code.ofExcept ((data.getKey "content").mapError .exc)
  match content.getD (.str "") with
  | .str text => handleContent E c (strip text) id now
  | _ => .raise (.exc .attributeError)

def handleTyping (data : Json) : ChatCall Unit := do
  let user ← user E c
  let isTyping ← Code.ofExcept ((data.getKey "is_typing").mapError .exc)
  groupSend E c (.typingIndicator user.id user.displayName (isTyping.getD (.bool false)))

/-- `_mark_messages_read`: the UPDATE leaves the messages that the user has sent -/
def markMessagesRead (now : Time) : ChatCall Unit := do
  let room ← room c
  let user ← user E c
  Code.act fun s => .ok ((), { s with messages := s.messages.map fun m =>
    if m.room = room.id ∧ m.isRead = false ∧ m.sender ≠ some user.id then
      { m with isRead := true, readAt := some now }
    else m })

def handleReadReceipt (now : Time) : ChatCall Unit := do
  markMessagesRead E c now
  let user ← user E c
  groupSend E c (.readReceipt user.id)

def receive (textData : Option String) (id : Pk) (now : Time) : ChatCall Unit :=
  match textData with
  | none => return ()
  | some text =>
    if text = "" then return ()
    else
      match E.loads text with
      | .decodeError => sendError c "Invalid JSON"
      | .raised e => .raise (.exc e)
      | .value data => do
        let msgType ← Code.ofExcept ((data.getKey "type").mapError .exc)
        if (msgType.getD .null).eqStr "chat_message" then handleChatMessage E c data id now
        else if (msgType.getD .null).eqStr "typing" then handleTyping E c data
        else if (msgType.getD .null).eqStr "read_receipt" then handleReadReceipt E c now
        else return ()

end ChatConsumer

/-! ## REST -/

/-- SendMessageSerializer -/
def SendMessageSerializer.validate : Json → Option String
  | .obj fields => (getField fields "content").bind (charField 0 2000)
  | _ => none

namespace SendMessageView

def getRoomOr404 (roomId : Pk) (user : Pk) : ChatCall ChatRoom := do
  let room ← Code.query fun s =>
    match s.rooms.find roomId with
    | none => .error (.exc (.notFound "Chat room not found."))
    | some room => .ok room
  Code.raiseIf (¬ room.isParticipant user) (.exc (.forbidden "You are not a participant of this chat room."))
  return room

def post (user : ChatUser) (roomId : Pk) (data : Json) (id : Pk) (now : Time) : ChatCall Unit := do
  let room ← getRoomOr404 roomId user.id
  let content ← Code.ofExcept ((SendMessageSerializer.validate data).elim (.error .fieldError) .ok)
  let _ ← Message.create { id, room := room.id, sender := some user.id, messageType := .text, content, isRead := false,
                           readAt := none, createdAt := now }
  return ()

end SendMessageView

/-! ## Calls -/

inductive ChatOp where
  | connect (c : ℕ)
  | disconnect (c : ℕ)
  /-- a frame: its text, if it is not a binary one -/
  | receive (c : ℕ) (textData : Option String) (id : Pk) (now : Time)
  /-- POST /chat/{room_id}/messages/ -/
  | sendMessage (user : ChatUser) (roomId : Pk) (data : Json) (id : Pk) (now : Time)

def ChatOp.code (E : ChatEnv) : ChatOp → ChatCall Unit
  | .connect c => ChatConsumer.connect E c
  | .disconnect c => ChatConsumer.disconnect E c
  | .receive c textData id now => ChatConsumer.receive E c textData id now
  | .sendMessage user roomId data id now => SendMessageView.post user roomId data id now

abbrev ChatPool := Pool ChatSite Failure Unit ChatOp

abbrev ChatInput := PoolEvent ChatOp Empty

def chatRun (E : ChatEnv) (s : ChatSite) (evs : List ChatInput) : ChatPool :=
  (Pool.init s).run (ChatOp.code E) (fun n _ => n.elim) evs

end GigMarketplace
