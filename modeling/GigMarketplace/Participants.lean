/-
Who speaks in a chat room, for any interleaving of connections, frames and REST posts.

A connection is checked once, when it is made, and keeps the room in `self.room`; frames that come later trust it. A
post is checked by itself. `ChatLaw` is the invariant that links the two: a room in `self.room` is the one that the
connection's URL names, and its user is a party of it.

Results:
- `keeps_receive`, `keeps_connect`, `keeps_sendMessage`: every statement keeps the law, and one of a stranger stores
  nothing and joins no group;
- `only_participants_speak`: every message that is no system message is by a party of its room, not blank and at most
  2000 characters long.
-/
import GigMarketplace.Chat

namespace GigMarketplace

open GigMarketplace.Core

/-! ## The law -/

/-- the connection's URL names the room, and its user is a party of it -/
def MayJoin (E : ChatEnv) (rooms : Table ChatRoom) (c : ℕ) (room : ChatRoom) : Prop :=
  ∃ id user, E.py.int (E.scope c).roomId = some id ∧ rooms.find id = some room ∧ (E.scope c).user = some user ∧
    room.isParticipant user.id = true

/-- a message by a party of its room, with a text of the right length -/
structure Spoken (rooms : Table ChatRoom) (m : Message) : Prop where
  sender : ∃ room user, rooms.find m.room = some room ∧ m.sender = some user ∧ room.isParticipant user = true
  notBlank : ¬ Blank m.content
  length : m.content.length ≤ 2000

structure ChatLaw (E : ChatEnv) (rooms : Table ChatRoom) (s : ChatSite) : Prop where
  sameRooms : s.rooms = rooms
  messages : ∀ m ∈ s.messages, m.messageType ≠ .system → Spoken rooms m
  joined : ∀ c room, s.joined c = some room → MayJoin E rooms c room
  groups : ∀ g ∈ s.groups, g.1 = ChatConsumer.roomGroupName E g.2 ∧ ∃ room, MayJoin E rooms g.2 room

/-- the one who makes the request is a party of the room it is for -/
def Insider (E : ChatEnv) (rooms : Table ChatRoom) : ChatOp → Prop
  | .connect c => ∃ room, MayJoin E rooms c room
  | .disconnect c => ∃ room, MayJoin E rooms c room
  | .receive c .. => ∃ room, MayJoin E rooms c room
  | .sendMessage user roomId .. => ∃ room, rooms.find roomId = some room ∧ room.isParticipant user.id = true

/-- a stranger stores nothing and joins no group -/
def StrangerOut (insider : Prop) (s s' : ChatSite) : Prop :=
  ¬ insider → s'.messages = s.messages ∧ ∀ g ∈ s'.groups, g ∈ s.groups

section Law

variable {E : ChatEnv} {rooms : Table ChatRoom} {c : ℕ} {insider : Prop} {s : ChatSite}

theorem StrangerOut.refl (s : ChatSite) : StrangerOut insider s s := fun _ => ⟨rfl, fun _ h => h⟩

/-- what an insider's statement does is free -/
theorem strangerOut_insider (h : insider) (s s' : ChatSite) : StrangerOut insider s s' := fun hno => absurd h hno

theorem ChatLaw.events (h : ChatLaw E rooms s) (events : List (String × ChatEvent)) :
    ChatLaw E rooms { s with events } := ⟨h.sameRooms, h.messages, h.joined, h.groups⟩

theorem ChatLaw.frames (h : ChatLaw E rooms s) (frames : List (ℕ × ServerFrame)) :
    ChatLaw E rooms { s with frames } := ⟨h.sameRooms, h.messages, h.joined, h.groups⟩

/-- `self.room = room` -/
theorem ChatLaw.join (h : ChatLaw E rooms s) {room : ChatRoom} (hmay : MayJoin E rooms c room) :
    ChatLaw E rooms { s with joined := Function.update s.joined c (some room) } := by
  refine ⟨h.sameRooms, h.messages, ?_, h.groups⟩
  intro c' room' hjoined
  by_cases hc : c' = c
  · subst hc
    simp only [Function.update_self] at hjoined
    cases hjoined
    exact hmay
  · simp only [Function.update_of_ne hc] at hjoined
    exact h.joined c' room' hjoined

/-- `group_add` -/
theorem ChatLaw.group (h : ChatLaw E rooms s) {room : ChatRoom} (hmay : MayJoin E rooms c room) :
    ChatLaw E rooms { s with groups := s.groups ++ [(ChatConsumer.roomGroupName E c, c)] } := by
  refine ⟨h.sameRooms, h.messages, h.joined, ?_⟩
  rw [List.forall_mem_append, List.forall_mem_singleton]
  exact ⟨h.groups, rfl, room, hmay⟩

/-! ## Statements -/

theorem keeps_send (frame : ServerFrame) :
    (ChatConsumer.send c frame).Keeps (ChatLaw E rooms) (StrangerOut insider) fun _ => True := by
  apply Code.keeps_act StrangerOut.refl
  intro s x hs h
  cases h
  exact ⟨hs.frames _, fun _ => ⟨rfl, fun _ hg => hg⟩, trivial⟩

theorem keeps_groupSend (event : ChatEvent) :
    (ChatConsumer.groupSend E c event).Keeps (ChatLaw E rooms) (StrangerOut insider) fun _ => True := by
  apply Code.keeps_act StrangerOut.refl
  intro s x hs h
  cases h
  exact ⟨hs.events _, fun _ => ⟨rfl, fun _ hg => hg⟩, trivial⟩

theorem keeps_groupDiscard :
    (ChatConsumer.groupDiscard E c).Keeps (ChatLaw E rooms) (StrangerOut insider) fun _ => True := by
  apply Code.keeps_act StrangerOut.refl
  intro s x hs h
  cases h
  refine ⟨⟨hs.sameRooms, hs.messages, hs.joined, ?_⟩, fun _ => ⟨rfl, ?_⟩, trivial⟩
  · intro g hg
    exact hs.groups g (List.mem_of_mem_filter hg)
  · intro g hg
    exact List.mem_of_mem_filter hg

/-- a message by an insider -/
theorem keeps_create {m : Message} (hm : Spoken rooms m) (hin : insider) :
    (Message.create m).Keeps (ChatLaw E rooms) (StrangerOut insider) fun m' => m' = m := by
  apply Code.keeps_act StrangerOut.refl
  intro s x hs h
  split_ifs at h
  cases h
  refine ⟨⟨hs.sameRooms, ?_, hs.joined, hs.groups⟩, strangerOut_insider hin _ _, rfl⟩
  rw [List.forall_mem_append, List.forall_mem_singleton]
  exact ⟨hs.messages, fun _ => hm⟩

/-- `self.room` -/
theorem keeps_room :
    (ChatConsumer.room c).Keeps (ChatLaw E rooms) (StrangerOut insider) fun room => MayJoin E rooms c room := by
  apply Code.keeps_query StrangerOut.refl
  intro s room hs h
  split at h
  · cases h
  · rename_i room' hjoined
    cases h
    exact hs.joined c room hjoined

theorem keeps_user :
    (ChatConsumer.user E c).Keeps (ChatLaw E rooms) (StrangerOut insider) fun user => (E.scope c).user = some user := by
  apply Code.keeps_ofExcept
  intro user h
  cases huser : (E.scope c).user with
  | none =>
    rw [huser] at h
    cases h
  | some user' =>
    rw [huser] at h
    cases h
    rfl

/-! ## Requests -/

theorem keeps_saveMessage {content : String} (hblank : ¬ Blank content) (hlength : content.length ≤ 2000) (id : Pk)
    (now : Time) : (ChatConsumer.saveMessage E c content id now).Keeps (ChatLaw E rooms)
      (StrangerOut (∃ room, MayJoin E rooms c room)) fun _ => True := by
  refine Code.keeps_bind keeps_room fun room hroom => ?_
  refine Code.keeps_bind keeps_user fun user huser => ?_
  refine Code.Keeps.post (keeps_create ⟨?_, hblank, hlength⟩ ⟨room, hroom⟩) fun _ _ => trivial
  obtain ⟨i, user', -, hfind, huser', hpart⟩ := hroom
  rw [huser] at huser'
  cases huser'
  have hid : room.id = i := Table.pk_of_find hfind
  refine ⟨room, user.id, ?_, rfl, hpart⟩
  rw [hid]
  exact hfind

theorem keeps_markMessagesRead (now : Time) : (ChatConsumer.markMessagesRead E c now).Keeps (ChatLaw E rooms)
      (StrangerOut (∃ room, MayJoin E rooms c room)) fun _ => True := by
  refine Code.keeps_bind keeps_room fun room hroom => ?_
  refine Code.keeps_bind keeps_user fun user huser => ?_
  apply Code.keeps_act StrangerOut.refl
  intro s x hs h
  cases h
  refine ⟨⟨hs.sameRooms, ?_, hs.joined, hs.groups⟩, strangerOut_insider ⟨room, hroom⟩ _ _, trivial⟩
  intro m hm htype
  obtain ⟨m', hm', rfl⟩ := List.mem_map.1 hm
  -- a flag of the message changes at most
  split_ifs at htype ⊢
  · obtain ⟨hsender, hblank, hlength⟩ := hs.messages m' hm' htype
    exact ⟨hsender, hblank, hlength⟩
  · exact hs.messages m' hm' htype

theorem keeps_handleContent {content : String} (hblank : content ≠ "" → ¬ Blank content) (id : Pk) (now : Time) :
    (ChatConsumer.handleContent E c content id now).Keeps (ChatLaw E rooms)
      (StrangerOut (∃ room, MayJoin E rooms c room)) fun _ => True := by
  unfold ChatConsumer.handleContent
  split_ifs with hempty hlong
  · exact True.intro
  · exact keeps_send _
  · have hlength : content.length ≤ 2000 := Nat.le_of_not_lt hlong
    refine Code.keeps_bind (keeps_saveMessage (hblank hempty) hlength id now) fun _ _ => ?_
    exact Code.keeps_bind keeps_user fun _ _ => keeps_groupSend _

theorem keeps_handleChatMessage (data : Json) (id : Pk) (now : Time) :
    (ChatConsumer.handleChatMessage E c data id now).Keeps (ChatLaw E rooms)
      (StrangerOut (∃ room, MayJoin E rooms c room)) fun _ => True := by
  refine Code.keeps_bind (Code.keeps_ofExcept fun _ _ => trivial) fun content _ => ?_
  generalize content.getD (.str "") = v
  cases v with
  | str text => exact keeps_handleContent not_blank_strip id now
  | _ => exact True.intro

theorem keeps_receive (textData : Option String) (id : Pk) (now : Time) :
    (ChatConsumer.receive E c textData id now).Keeps (ChatLaw E rooms)
      (StrangerOut (∃ room, MayJoin E rooms c room)) fun _ => True := by
  unfold ChatConsumer.receive
  split
  · trivial
  · split_ifs
    · trivial
    · split
      · exact keeps_send _
      · trivial
      · refine Code.keeps_bind (Code.keeps_ofExcept fun _ _ => trivial) fun msgType _ => ?_
        split_ifs
        · exact keeps_handleChatMessage _ id now
        · refine Code.keeps_bind keeps_user fun _ _ => ?_
          refine Code.keeps_bind (Code.keeps_ofExcept fun _ _ => trivial) fun _ _ => ?_
          exact keeps_groupSend _
        · refine Code.keeps_bind (keeps_markMessagesRead now) fun _ _ => ?_
          exact Code.keeps_bind keeps_user fun _ _ => keeps_groupSend _
        · trivial

theorem keeps_connect : (ChatConsumer.connect E c).Keeps (ChatLaw E rooms)
    (StrangerOut (∃ room, MayJoin E rooms c room)) fun _ => True := by
  have hget : (ChatConsumer.getRoom E (E.scope c).roomId).Keeps (ChatLaw E rooms)
      (StrangerOut (∃ room, MayJoin E rooms c room)) fun found => ∀ room, found = some room →
        ∃ id, E.py.int (E.scope c).roomId = some id ∧ rooms.find id = some room := by
    apply Code.keeps_query StrangerOut.refl
    intro s found hs h room hroom
    split at h
    · cases h
    · rename_i id hid
      cases h
      rw [hs.sameRooms] at hroom
      exact ⟨id, hid, (Option.filter_eq_some_iff.1 hroom).1⟩
  unfold ChatConsumer.connect
  cases huser : (E.scope c).user with
  | none => exact keeps_send _
  | some user =>
    refine Code.keeps_bind hget fun found hfound => ?_
    cases found with
    | none => exact keeps_send _
    | some room =>
      dsimp only
      split_ifs with hpart
      · obtain ⟨id, hid, hfind⟩ := hfound room rfl
        have hmay : MayJoin E rooms c room := ⟨id, user, hid, hfind, huser, hpart⟩
        refine Code.keeps_bind (P := fun _ => True) ?_ fun _ _ => Code.keeps_bind (P := fun _ => True) ?_ fun _ _ =>
          keeps_send _
        · apply Code.keeps_act StrangerOut.refl
          intro s x hs h
          cases h
          exact ⟨hs.join hmay, strangerOut_insider ⟨room, hmay⟩ _ _, trivial⟩
        · apply Code.keeps_act StrangerOut.refl
          intro s x hs h
          cases h
          exact ⟨hs.group hmay, strangerOut_insider ⟨room, hmay⟩ _ _, trivial⟩
      · exact keeps_send _

theorem keeps_sendMessage (user : ChatUser) (roomId : Pk) (data : Json) (id : Pk) (now : Time) :
    (SendMessageView.post user roomId data id now).Keeps (ChatLaw E rooms)
      (StrangerOut (∃ room, rooms.find roomId = some room ∧ room.isParticipant user.id = true)) fun _ => True := by
  have hget : (SendMessageView.getRoomOr404 roomId user.id).Keeps (ChatLaw E rooms)
      (StrangerOut (∃ room, rooms.find roomId = some room ∧ room.isParticipant user.id = true)) fun room =>
        rooms.find roomId = some room ∧ room.isParticipant user.id = true := by
    refine Code.keeps_bind (P := fun room => rooms.find roomId = some room) ?_ fun room hfind => ?_
    · apply Code.keeps_query StrangerOut.refl
      intro s room hs h
      rw [hs.sameRooms] at h
      split at h
      · cases h
      · rename_i room' hfind
        cases h
        exact hfind
    · exact Code.keeps_bind (Code.keeps_raiseIf _ _) fun _ hpart => ⟨hfind, not_not.1 hpart⟩
  have hvalid : ∀ content, SendMessageSerializer.validate data = some content →
      ¬ Blank content ∧ content.length ≤ 2000 := by
    intro content h
    cases data with
    | obj fields =>
      obtain ⟨v, -, hv⟩ := Option.bind_eq_some_iff.1 h
      obtain ⟨hblank, -, hlength⟩ := charField_some hv
      exact ⟨hblank, hlength⟩
    | _ => cases h
  refine Code.keeps_bind hget fun room hroom => ?_
  refine Code.keeps_bind (P := fun content => ¬ Blank content ∧ content.length ≤ 2000) ?_ fun content hcontent => ?_
  · apply Code.keeps_ofExcept
    intro content h
    cases hdata : SendMessageSerializer.validate data with
    | none =>
      rw [hdata] at h
      cases h
    | some text =>
      rw [hdata] at h
      cases h
      exact hvalid content hdata
  · have hid : room.id = roomId := Table.pk_of_find hroom.1
    refine Code.keeps_bind (keeps_create ⟨⟨room, user.id, ?_, rfl, hroom.2⟩, hcontent.1, hcontent.2⟩ ⟨room, hroom⟩)
      fun _ _ => trivial
    rw [hid]
    exact hroom.1

/-- every request -/
theorem keeps_chatOp (o : ChatOp) :
    (o.code E).Keeps (ChatLaw E rooms) (StrangerOut (Insider E rooms o)) fun _ => True := by
  cases o with
  | connect c => exact keeps_connect
  | disconnect c => exact keeps_groupDiscard
  | receive c textData id now => exact keeps_receive textData id now
  | sendMessage user roomId data id now => exact keeps_sendMessage user roomId data id now

end Law

/-! ## Every run -/

/-- **Only participants speak.** From a state without connections, after any connects, frames, disconnects and posts in
any interleaving, every message that is no system message is by a party of its room, not blank and at most 2000
characters long; a request by anyone else stores nothing and joins no group. -/
theorem only_participants_speak (E : ChatEnv) (s : ChatSite)
    (hmessages : ∀ m ∈ s.messages, m.messageType ≠ .system → Spoken s.rooms m) (hjoined : ∀ c, s.joined c = none)
    (hgroups : s.groups = []) (evs : List ChatInput) :
    (chatRun E s evs).mem.rooms = s.rooms ∧
      (∀ m ∈ (chatRun E s evs).mem.messages, m.messageType ≠ .system → Spoken s.rooms m) ∧
      ∀ e ∈ (chatRun E s evs).trace, ¬ Insider E s.rooms e.op →
        e.after.messages = e.before.messages ∧ ∀ g ∈ e.after.groups, g ∈ e.before.groups := by
  have hinit : ChatLaw E s.rooms s := by
    refine ⟨rfl, hmessages, ?_, ?_⟩
    · intro c room h
      rw [hjoined c] at h
      cases h
    · intro g hg
      rw [hgroups] at hg
      cases hg
  obtain ⟨hlaw, htrace⟩ := pool_keeps keeps_chatOp (fun n : Empty => n.elim) hinit evs
  exact ⟨hlaw.sameRooms, hlaw.messages, fun e he => (htrace e he).2⟩

/-- the room of the small market's job, before anyone has connected -/
def demoChat : ChatSite where
  rooms := ⟨[⟨1, 1, 1, 2, true⟩], by decide⟩
  messages := []
  joined _ := none
  groups := []
  events := []
  frames := []

def demoFrame : String := "\x7b\"type\": \"chat_message\", \"content\": \" Salom \"\x7d"

/-- the worker's connection, and one of a stranger; `loads` knows one frame -/
def demoChatEnv : ChatEnv where
  py := demoPy
  loads text :=
    if text = demoFrame then .value (.obj [("type", .str "chat_message"), ("content", .str " Salom ")]) else .decodeError
  scope c := ⟨"1", some (if c = 0 then ⟨2, "Ali"⟩ else ⟨3, "Vali"⟩)⟩

/-- both connect and send the frame -/
def demoTalk : List ChatInput :=
  [.start 0 (.connect 0), .step 0, .step 0, .step 0, .start 1 (.connect 1), .step 1,
    .start 2 (.receive 0 (some demoFrame) 1 100), .step 2, .step 2,
    .start 3 (.receive 1 (some demoFrame) 2 100), .step 3, .step 3]

theorem only_participants_speak_demo :
    (chatRun demoChatEnv demoChat demoTalk).mem.rooms = demoChat.rooms ∧
      (∀ m ∈ (chatRun demoChatEnv demoChat demoTalk).mem.messages, m.messageType ≠ .system →
        Spoken demoChat.rooms m) ∧
      ∀ e ∈ (chatRun demoChatEnv demoChat demoTalk).trace, ¬ Insider demoChatEnv demoChat.rooms e.op →
        e.after.messages = e.before.messages ∧ ∀ g ∈ e.after.groups, g ∈ e.before.groups :=
  only_participants_speak demoChatEnv demoChat (fun m hm => by cases hm) (fun _ => rfl) rfl demoTalk

/-- the worker's message is stored, the stranger's is not -/
example : (chatRun demoChatEnv demoChat demoTalk).mem.messages = [⟨1, 1, some 2, .text, "Salom", false, none, 100⟩] ∧
    (chatRun demoChatEnv demoChat demoTalk).mem.groups = [("chat_1", 0)] := by decide +kernel

end GigMarketplace
