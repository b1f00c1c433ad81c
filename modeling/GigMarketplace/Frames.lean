/-
What a connection and a frame come to, when nothing else happens in between.

`Frame.ofText` says from the text alone what a frame asks for, and `Frame.serve` what is then done; `run_receive` says
that the consumer, once it has joined a room, does just this.

Results:
- `connect_outcome`: the ways a connection can go;
- `run_receive`: a frame is served as its text asks.
-/
import GigMarketplace.Participants

namespace GigMarketplace

open GigMarketplace.Core

/-! ## Connections -/

/-- the URL's room is there and active, and the user is a party of it -/
def Admits (E : ChatEnv) (rooms : Table ChatRoom) (c : ℕ) (room : ChatRoom) : Prop :=
  MayJoin E rooms c room ∧ room.isActive = true

theorem admits_iff {E : ChatEnv} {rooms : Table ChatRoom} {c : ℕ} {room : ChatRoom} {user : ChatUser} {id : Pk}
    (hid : E.py.int (E.scope c).roomId = some id) (huser : (E.scope c).user = some user) :
    Admits E rooms c room ↔ rooms.find id = some room ∧ room.isParticipant user.id = true ∧ room.isActive = true := by
  constructor
  · rintro ⟨⟨id', user', hid', hfind, huser', hpart⟩, hactive⟩
    rw [hid, Option.some.injEq] at hid'
    rw [huser, Option.some.injEq] at huser'
    subst hid' huser'
    exact ⟨hfind, hpart, hactive⟩
  · rintro ⟨hfind, hpart, hactive⟩
    exact ⟨⟨id, user, hid, hfind, huser, hpart⟩, hactive⟩

/-- the frame that the consumer answers on its connection -/
def ChatSite.answer (s : ChatSite) (c : ℕ) (frame : ServerFrame) : ChatSite :=
  { s with frames := s.frames ++ [(c, frame)] }

/-- the consumer has the room, and its channel is in the group -/
def ChatSite.join (s : ChatSite) (E : ChatEnv) (c : ℕ) (room : ChatRoom) : ChatSite :=
  { s with joined := Function.update s.joined c (some room),
           groups := s.groups ++ [(ChatConsumer.roomGroupName E c, c)] }

theorem joined_join (s : ChatSite) (E : ChatEnv) (c : ℕ) (room : ChatRoom) (frame : ServerFrame) :
    ((s.join E c room).answer c frame).joined c = some room := Function.update_self ..

/-- how a connection goes, by what `connect` comes to -/
inductive ConnectOutcome (E : ChatEnv) (c : ℕ) (s : ChatSite) (r : Except Failure Unit × ChatSite) : Prop where
  | anonymous (h : (E.scope c).user = none) (hr : r = (.ok (), s.answer c (.close 4001)))
  | badId {user : ChatUser} (h : (E.scope c).user = some user) (hid : E.py.int (E.scope c).roomId = none)
    (hr : r = (.error (.exc .valueError), s))
  | refused {user : ChatUser} {id : Pk} (h : (E.scope c).user = some user)
    (hid : E.py.int (E.scope c).roomId = some id) (hno : ∀ room, ¬ Admits E s.rooms c room)
    (hr : r = (.ok (), s.answer c (.close 4003)))
  | joined {room : ChatRoom} (h : Admits E s.rooms c room) (hr : r = (.ok (), (s.join E c room).answer c .accept))

/-! ## Frames -/

/-- what a text asks the consumer for -/
inductive Frame where
  | nothing
  /-- it is answered with an error -/
  | wrong (reason : String)
  /-- an exception that nothing catches -/
  | fatal (e : Exc)
  | message (content : String)
  | typing (isTyping : Json)
  | readReceipt

/-- a text without white space around it -/
def Frame.ofContent (content : String) : Frame :=
  if content = "" then .nothing
  else if 2000 < content.length then .wrong "Message too long (max 2000 chars)"
  else if hasNull content then .fatal .valueError
  else .message content

/-- a content of another type has no `strip` -/
def Frame.ofChat (fields : List (String × Json)) : Frame :=
  match (getField fields "content").getD (.str "") with
  | .str text => .ofContent (strip text)
  | _ => .fatal .attributeError

def Frame.ofFields (fields : List (String × Json)) : Frame :=
  if ((getField fields "type").getD .null).eqStr "chat_message" then .ofChat fields
  else if ((getField fields "type").getD .null).eqStr "typing" then
    .typing ((getField fields "is_typing").getD (.bool false))
  else if ((getField fields "type").getD .null).eqStr "read_receipt" then .readReceipt
  else .nothing

def Frame.ofText (E : ChatEnv) (text : String) : Frame :=
  if text = "" then .nothing
  else
    match E.loads text with
    | .decodeError => .wrong "Invalid JSON"
    | .raised e => .fatal e
    | .value (.obj fields) => .ofFields fields
    | .value _ => .fatal .attributeError

/-- a message as both paths store it -/
def textMessage (room : ChatRoom) (user : ChatUser) (content : String) (id : Pk) (now : Time) : Message where
  id := id
  room := room.id
  sender := some user.id
  messageType := .text
  content := content
  isRead := false
  readAt := none
  createdAt := now

/-- a receipt of `user` in `room` -/
def ChatSite.markRead (s : ChatSite) (room : ChatRoom) (user : ChatUser) (now : Time) : ChatSite :=
  { s with messages := s.messages.map fun m =>
      if m.room = room.id ∧ m.isRead = false ∧ m.sender ≠ some user.id then { m with isRead := true, readAt := some now }
      else m }

/-- the consumer sends to its group -/
def ChatSite.tell (s : ChatSite) (E : ChatEnv) (c : ℕ) (event : ChatEvent) : ChatSite :=
  { s with events := s.events ++ [(ChatConsumer.roomGroupName E c, event)] }

/-- the event that announces a message -/
def announcement (user : ChatUser) (m : Message) : ChatEvent :=
  .chatMessage m.id user.id user.displayName m.content m.createdAt

/-- what is done, for `user` in `room` -/
def Frame.serve (E : ChatEnv) (c : ℕ) (room : ChatRoom) (user : ChatUser) (id : Pk) (now : Time) (s : ChatSite) :
    Frame → Except Failure Unit × ChatSite
  | .nothing => (.ok (), s)
  | .wrong reason => (.ok (), s.answer c (.error reason))
  | .fatal e => (.error (.exc e), s)
  | .message content =>
    let m := textMessage room user content id now
    (.ok (), ({ s with messages := s.messages ++ [m] }).tell E c (announcement user m))
  | .typing isTyping => (.ok (), s.tell E c (.typingIndicator user.id user.displayName isTyping))
  | .readReceipt => (.ok (), (s.markRead room user now).tell E c (.readReceipt user.id))

section Runs

variable {E : ChatEnv} {c : ℕ} {s : ChatSite} {room : ChatRoom} {user : ChatUser} {id : Pk} {now : Time}

/-- `receive`, for a text that is a JSON object -/
theorem receive_obj {text : String} (hne : text ≠ "") {fields : List (String × Json)}
    (hloads : E.loads text = .value (.obj fields)) : ChatConsumer.receive E c (some text) id now =
      if ((getField fields "type").getD .null).eqStr "chat_message" then
        ChatConsumer.handleChatMessage E c (.obj fields) id now
      else if ((getField fields "type").getD .null).eqStr "typing" then ChatConsumer.handleTyping E c (.obj fields)
      else if ((getField fields "type").getD .null).eqStr "read_receipt" then ChatConsumer.handleReadReceipt E c now
      else return () := by
  unfold ChatConsumer.receive
  dsimp only
  rw [if_neg hne, hloads]
  dsimp only [Json.getKey, Except.mapError]
  rw [Code.ofExcept_ok_bind]

/-- a content that is a text -/
theorem handleChatMessage_text {fields : List (String × Json)} {text : String}
    (hcontent : (getField fields "content").getD (.str "") = .str text) :
    ChatConsumer.handleChatMessage E c (.obj fields) id now = ChatConsumer.handleContent E c (strip text) id now := by
  unfold ChatConsumer.handleChatMessage
  dsimp only [Json.getKey, Except.mapError]
  rw [Code.ofExcept_ok_bind, hcontent]

theorem run_send (frame : ServerFrame) : (ChatConsumer.send c frame).run s = (.ok (), s.answer c frame) :=
  Code.run_act _ _

theorem run_groupSend (event : ChatEvent) : (ChatConsumer.groupSend E c event).run s = (.ok (), s.tell E c event) :=
  Code.run_act _ _

theorem run_room (hjoined : s.joined c = some room) : (ChatConsumer.room c).run s = (.ok room, s) := by
  rw [ChatConsumer.room, Code.run_query, hjoined]

theorem run_user (huser : (E.scope c).user = some user) : (ChatConsumer.user E c).run s = (.ok user, s) := by
  rw [ChatConsumer.user, Code.run_ofExcept, huser]
  rfl

theorem run_handleTyping (huser : (E.scope c).user = some user) (fields : List (String × Json)) :
    (ChatConsumer.handleTyping E c (.obj fields)).run s =
      (Frame.typing ((getField fields "is_typing").getD (.bool false))).serve E c room user id now s := by
  rw [ChatConsumer.handleTyping, Code.run_bind_ok (run_user huser)]
  exact run_groupSend _

theorem run_create {m : Message} (hfresh : ∀ m' ∈ s.messages, m'.id ≠ m.id) :
    (Message.create m).run s =
      if hasNull m.content then (.error (.exc .valueError), s) else (.ok m, { s with messages := s.messages ++ [m] }) := by
  have htaken : ¬ ∃ m' ∈ s.messages, m'.id = m.id := by
    rintro ⟨m', hm', hid⟩
    exact hfresh m' hm' hid
  rw [Message.create, Code.run_act, Code.effect]
  by_cases hnull : hasNull m.content = true
  · simp [hnull, Except.map]
  · simp [hnull, htaken, Except.map]

/-- the room that `_get_room` finds -/
theorem run_getRoom {roomId : String} (hid : E.py.int roomId = some id) :
    (ChatConsumer.getRoom E roomId).run s = (.ok ((s.rooms.find id).filter fun room => room.isActive), s) := by
  rw [ChatConsumer.getRoom, Code.run_query, hid]

/-- **The ways a connection can go** -/
theorem connect_outcome : ConnectOutcome E c s ((ChatConsumer.connect E c).run s) := by
  unfold ChatConsumer.connect
  cases huser : (E.scope c).user with
  | none => exact .anonymous huser (run_send _)
  | some user =>
    dsimp only
    cases hid : E.py.int (E.scope c).roomId with
    | none =>
      refine .badId huser hid (Code.run_bind_error ?_ _)
      rw [ChatConsumer.getRoom, Code.run_query, hid]
    | some id =>
      rw [Code.run_bind_ok (run_getRoom hid)]
      cases hfound : (s.rooms.find id).filter fun room => room.isActive with
      | none =>
        refine .refused huser hid (fun room hadmits => ?_) (run_send _)
        obtain ⟨hfind, -, hactive⟩ := (admits_iff hid huser).1 hadmits
        rw [hfind, Option.filter_some, if_pos hactive] at hfound
        cases hfound
      | some room =>
        obtain ⟨hfind, hactive⟩ := Option.filter_eq_some_iff.1 hfound
        dsimp only
        by_cases hpart : room.isParticipant user.id = true
        · rw [if_pos hpart]
          exact .joined ((admits_iff hid huser).2 ⟨hfind, hpart, hactive⟩) rfl
        · rw [if_neg hpart]
          refine .refused huser hid (fun room' hadmits => ?_) (run_send _)
          obtain ⟨hfind', hpart', -⟩ := (admits_iff hid huser).1 hadmits
          rw [hfind, Option.some.injEq] at hfind'
          subst hfind'
          exact hpart hpart'

section Joined

variable (hjoined : s.joined c = some room) (huser : (E.scope c).user = some user)

include hjoined huser

theorem run_saveMessage {content : String} (hfresh : ∀ m ∈ s.messages, m.id ≠ id) :
    (ChatConsumer.saveMessage E c content id now).run s =
      if hasNull content then (.error (.exc .valueError), s)
      else (.ok (textMessage room user content id now),
        { s with messages := s.messages ++ [textMessage room user content id now] }) := by
  rw [ChatConsumer.saveMessage, Code.run_bind_ok (run_room hjoined), Code.run_bind_ok (run_user huser)]
  exact run_create hfresh

theorem run_handleContent {content : String} (hfresh : ∀ m ∈ s.messages, m.id ≠ id) :
    (ChatConsumer.handleContent E c content id now).run s =
      (Frame.ofContent content).serve E c room user id now s := by
  unfold ChatConsumer.handleContent Frame.ofContent
  split_ifs with hempty hlong hnull
  · rfl
  · exact run_send _
  · exact Code.run_bind_error ((run_saveMessage hjoined huser hfresh).trans (if_pos hnull)) _
  · rw [Code.run_bind_ok ((run_saveMessage hjoined huser hfresh).trans (if_neg hnull)),
      Code.run_bind_ok (run_user huser)]
    exact run_groupSend _

theorem run_handleChatMessage (fields : List (String × Json)) (hfresh : ∀ m ∈ s.messages, m.id ≠ id) :
    (ChatConsumer.handleChatMessage E c (.obj fields) id now).run s =
      (Frame.ofChat fields).serve E c room user id now s := by
  unfold Frame.ofChat
  cases hcontent : (getField fields "content").getD (.str "") with
  | str text =>
    rw [handleChatMessage_text hcontent]
    exact run_handleContent hjoined huser hfresh
  | _ =>
    unfold ChatConsumer.handleChatMessage
    dsimp only [Json.getKey, Except.mapError]
    rw [Code.ofExcept_ok_bind, hcontent]
    rfl

theorem run_handleReadReceipt :
    (ChatConsumer.handleReadReceipt E c now).run s = Frame.readReceipt.serve E c room user id now s := by
  have hmark : (ChatConsumer.markMessagesRead E c now).run s = (.ok (), s.markRead room user now) := by
    rw [ChatConsumer.markMessagesRead, Code.run_bind_ok (run_room hjoined), Code.run_bind_ok (run_user huser)]
    rfl
  rw [ChatConsumer.handleReadReceipt, Code.run_bind_ok hmark, Code.run_bind_ok (run_user huser)]
  exact run_groupSend _

/-- **A frame is served as its text asks**, once the consumer has joined a room. -/
theorem run_receive (text : String) (now : Time) (hfresh : ∀ m ∈ s.messages, m.id ≠ id) :
    (ChatConsumer.receive E c (some text) id now).run s = (Frame.ofText E text).serve E c room user id now s := by
  by_cases hempty : text = ""
  · subst hempty
    rfl
  by_cases hobj : ∃ fields, E.loads text = .value (.obj fields)
  · obtain ⟨fields, hloads⟩ := hobj
    rw [receive_obj hempty hloads, Frame.ofText, if_neg hempty, hloads]
    dsimp only [Frame.ofFields]
    split_ifs
    · exact run_handleChatMessage hjoined huser fields hfresh
    · exact run_handleTyping huser fields
    · exact run_handleReadReceipt hjoined huser
    · rfl
  · unfold ChatConsumer.receive Frame.ofText
    dsimp only
    rw [if_neg hempty, if_neg hempty]
    cases hloads : E.loads text with
    | decodeError => exact run_send _
    | raised e => rfl
    | value data =>
      cases data with
      | obj fields => exact absurd ⟨fields, hloads⟩ hobj
      | _ => rfl

end Joined

end Runs

end GigMarketplace
