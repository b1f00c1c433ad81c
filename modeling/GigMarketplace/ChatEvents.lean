/-
What is sent to the groups of `apps/chat/consumers.py`, for any interleaving of connections, frames and REST posts.

A chat message is stored and sent to the group in two statements, so what is sent relies on what was stored: the
triples here are those of `Core/Rely.lean`. Frames are taken to come on connections that were accepted, as the channels
library makes sure.

Results:
- `assures_receive`, `assures_connect` and the others: what each request relies on and keeps;
- `genuine_step`: whatever is sent to a group is by the user of a connection that may join the group's room, and a chat
  message that is sent is one of the room's stored messages;
- `chat_posts_once`: no message is sent to a group twice.
-/
import GigMarketplace.Core.Ghost
import GigMarketplace.Core.Rely
import GigMarketplace.Participants

namespace GigMarketplace

open GigMarketplace.Core

/-! ## What is sent to a group -/

/-- the message is still there; its flag may have changed -/
def Persists (s s' : ChatSite) : Prop :=
  ∀ m ∈ s.messages, ∃ m' ∈ s'.messages, { m' with isRead := m.isRead, readAt := m.readAt } = m

/-- messages stay, and what was sent to a group stays sent -/
structure ChatGrows (s s' : ChatSite) : Prop where
  messages : Persists s s'
  events : s.events <+: s'.events

/-- `user` has a connection to the group, which may join `room` -/
def Speaker (E : ChatEnv) (rooms : Table ChatRoom) (group : String) (room : ChatRoom) (user : ChatUser) : Prop :=
  ∃ c, MayJoin E rooms c room ∧ (E.scope c).user = some user ∧ group = ChatConsumer.roomGroupName E c

/-- the event is by `user`; a chat message is one of the stored messages of `room` -/
def ChatEvent.By (messages : List Message) (room : ChatRoom) (user : ChatUser) : ChatEvent → Prop
  | .chatMessage id senderId senderName content createdAt => senderId = user.id ∧ senderName = user.displayName ∧
      ∃ m ∈ messages, m.id = id ∧ m.room = room.id ∧ m.sender = some user.id ∧ m.messageType = .text ∧
        m.content = content ∧ m.createdAt = createdAt
  | .typingIndicator userId userName _ => userId = user.id ∧ userName = user.displayName
  | .readReceipt userId => userId = user.id

def Genuine (E : ChatEnv) (rooms : Table ChatRoom) (s : ChatSite) (x : String × ChatEvent) : Prop :=
  ∃ room user, Speaker E rooms x.1 room user ∧ x.2.By s.messages room user

/-- the law of `Participants.lean`; everything sent is genuine; only connections that may join are accepted -/
structure HearLaw (E : ChatEnv) (rooms : Table ChatRoom) (s : ChatSite) : Prop where
  law : ChatLaw E rooms s
  genuine : ∀ x ∈ s.events, Genuine E rooms s x
  accepted : ∀ c, (c, .accept) ∈ s.frames → ∃ room, MayJoin E rooms c room

section Law

variable {E : ChatEnv} {rooms : Table ChatRoom} {c : ℕ} {s s' s₁ s₂ s₃ : ChatSite} {room : ChatRoom} {user : ChatUser}

theorem persists_of_messages (h : s'.messages = s.messages) : Persists s s' := by
  intro m hm
  rw [← h] at hm
  exact ⟨m, hm, rfl⟩

theorem ChatGrows.refl (s : ChatSite) : ChatGrows s s := ⟨persists_of_messages rfl, List.prefix_refl _⟩

theorem ChatGrows.trans (h : ChatGrows s₁ s₂) (h' : ChatGrows s₂ s₃) : ChatGrows s₁ s₃ := by
  refine ⟨fun m hm => ?_, h.events.trans h'.events⟩
  obtain ⟨m', hm', e'⟩ := h.messages m hm
  obtain ⟨m'', hm'', e''⟩ := h'.messages m' hm'
  refine ⟨m'', hm'', ?_⟩
  rw [← e', ← e'']

theorem ChatEvent.By.mono {ev : ChatEvent} (h : ev.By s.messages room user) (hp : Persists s s') :
    ev.By s'.messages room user := by
  cases ev with
  | chatMessage id senderId senderName content createdAt =>
    obtain ⟨hid, hname, m, hm, hfields⟩ := h
    obtain ⟨m', hm', e⟩ := hp m hm
    rw [← e] at hfields
    exact ⟨hid, hname, m', hm', hfields⟩
  | _ => exact h

theorem Genuine.mono {x : String × ChatEvent} (h : Genuine E rooms s x) (hp : Persists s s') :
    Genuine E rooms s' x := by
  obtain ⟨room, user, hspeaker, hby⟩ := h
  exact ⟨room, user, hspeaker, hby.mono hp⟩

/-- a statement that sends nothing -/
structure Silent (s s' : ChatSite) : Prop where
  messages : Persists s s'
  events : s'.events = s.events
  frames : s'.frames = s.frames

theorem Silent.refl (s : ChatSite) : Silent s s := ⟨persists_of_messages rfl, rfl, rfl⟩

theorem HearLaw.quiet (h : HearLaw E rooms s) (hlaw : ChatLaw E rooms s') (hquiet : Silent s s') :
    HearLaw E rooms s' ∧ ChatGrows s s' := by
  refine ⟨⟨hlaw, fun x hx => ?_, ?_⟩, hquiet.messages, ?_⟩
  · rw [hquiet.events] at hx
    exact (h.genuine x hx).mono hquiet.messages
  · rw [hquiet.frames]
    exact h.accepted
  · exact ⟨[], by rw [List.append_nil, hquiet.events]⟩

/-- silent code that keeps the law of `Participants.lean` -/
theorem assures_silent {A : Type} {x : ChatCall A} {R : ChatSite → ChatSite → Prop} {P : A → Prop}
    (hkeeps : x.Keeps (ChatLaw E rooms) R P) (hsilent : x.Each Silent) :
    x.Assures (HearLaw E rooms) ChatGrows ChatGrows (fun a _ => P a) s := by
  induction x generalizing s with
  | ret a => exact hkeeps
  | raise e => trivial
  | stmt f next ih =>
    intro s' _ hJ
    obtain ⟨⟨hlaw, -⟩, hnext⟩ := hkeeps s' hJ.law
    obtain ⟨hquiet, hrest⟩ := hsilent s'
    exact ⟨hJ.quiet hlaw hquiet, ih s' hnext hrest⟩

/-! ### Statements -/

theorem assures_send {frame : ServerFrame} (hframe : frame = .accept → ∃ room, MayJoin E rooms c room) :
    (ChatConsumer.send c frame).Assures (HearLaw E rooms) ChatGrows ChatGrows (fun _ _ => True) s := by
  apply Code.assures_act ChatGrows.refl
  intro s' x _ hJ h
  cases h
  refine ⟨⟨hJ.law.frames _, hJ.genuine, fun c' hc' => ?_⟩, ⟨persists_of_messages rfl, List.prefix_refl _⟩, trivial⟩
  rcases List.mem_append.1 hc' with hold | hnew
  · exact hJ.accepted c' hold
  · rw [List.mem_singleton, Prod.mk.injEq] at hnew
    rw [hnew.1]
    exact hframe hnew.2.symm

theorem assures_sendError (message : String) :
    (ChatConsumer.sendError c message).Assures (HearLaw E rooms) ChatGrows ChatGrows (fun _ _ => True) s :=
  assures_send fun h => by cases h

/-- what is sent is by the user of the connection -/
theorem assures_groupSend (hmay : MayJoin E rooms c room) (huser : (E.scope c).user = some user) {event : ChatEvent}
    (hby : event.By s.messages room user) :
    (ChatConsumer.groupSend E c event).Assures (HearLaw E rooms) ChatGrows ChatGrows (fun _ _ => True) s := by
  apply Code.assures_act ChatGrows.refl
  intro s' x hR hJ h
  cases h
  refine ⟨⟨hJ.law.events _, ?_, hJ.accepted⟩, ⟨persists_of_messages rfl, List.prefix_append _ _⟩, trivial⟩
  rw [List.forall_mem_append, List.forall_mem_singleton]
  exact ⟨hJ.genuine, room, user, ⟨c, hmay, huser, rfl⟩, hby.mono hR.messages⟩

theorem silent_groupDiscard : (ChatConsumer.groupDiscard E c).Each Silent := by
  apply Code.each_act Silent.refl
  intro s x h
  cases h
  exact ⟨persists_of_messages rfl, rfl, rfl⟩

theorem silent_create (m : Message) : (Message.create m).Each Silent := by
  apply Code.each_act Silent.refl
  intro s x h
  split_ifs at h
  cases h
  exact ⟨fun m' hm' => ⟨m', List.mem_append_left _ hm', rfl⟩, rfl, rfl⟩

/-- the new message is there afterwards -/
theorem assures_create {m : Message} (hm : Spoken rooms m) :
    (Message.create m).Assures (HearLaw E rooms) ChatGrows ChatGrows (fun m' s' => m' = m ∧ m ∈ s'.messages) s := by
  apply Code.assures_act ChatGrows.refl
  intro s' x _ hJ h
  split_ifs at h
  cases h
  have hlaw : ChatLaw E rooms { s' with messages := s'.messages ++ [m] } := by
    refine ⟨hJ.law.sameRooms, ?_, hJ.law.joined, hJ.law.groups⟩
    rw [List.forall_mem_append, List.forall_mem_singleton]
    exact ⟨hJ.law.messages, fun _ => hm⟩
  obtain ⟨hlaw', hgrows⟩ := hJ.quiet hlaw ⟨fun m' hm' => ⟨m', List.mem_append_left _ hm', rfl⟩, rfl, rfl⟩
  exact ⟨hlaw', hgrows, rfl, List.mem_append_right _ (List.mem_singleton_self _)⟩

theorem assures_room :
    (ChatConsumer.room c).Assures (HearLaw E rooms) ChatGrows ChatGrows (fun room _ => MayJoin E rooms c room) s := by
  apply Code.assures_query ChatGrows.refl
  intro s' room _ hJ h
  split at h
  · cases h
  · rename_i room' hjoined
    cases h
    exact hJ.law.joined c room hjoined

theorem assures_user :
    (ChatConsumer.user E c).Assures (HearLaw E rooms) ChatGrows ChatGrows
      (fun user s' => s' = s ∧ (E.scope c).user = some user) s := by
  apply Code.assures_ofExcept
  intro user h
  cases huser : (E.scope c).user with
  | none =>
    rw [huser] at h
    cases h
  | some user' =>
    rw [huser] at h
    cases h
    exact ⟨rfl, rfl⟩

/-! ### Requests -/

theorem silent_markMessagesRead (now : Time) : (ChatConsumer.markMessagesRead E c now).Each Silent := by
  refine Code.each_bind (Code.each_query Silent.refl _) fun room => ?_
  refine Code.each_bind (Code.each_ofExcept _) fun user => ?_
  apply Code.each_act Silent.refl
  intro s x h
  cases h
  exact ⟨fun m hm => ⟨_, List.mem_map_of_mem hm, by split_ifs <;> rfl⟩, rfl, rfl⟩

theorem silent_sendMessage (user : ChatUser) (roomId : Pk) (data : Json) (id : Pk) (now : Time) :
    (SendMessageView.post user roomId data id now).Each Silent := by
  refine Code.each_bind ?_ fun room => Code.each_bind (Code.each_ofExcept _) fun content =>
    Code.each_bind (silent_create _) fun _ => trivial
  refine Code.each_bind (Code.each_query Silent.refl _) fun room => ?_
  exact Code.each_bind (Code.each_raiseIf _ _) fun _ => trivial

/-- the message that `_save_message` returns is stored -/
theorem assures_saveMessage {content : String} (hblank : ¬ Blank content) (hlength : content.length ≤ 2000) (id : Pk)
    (now : Time) : (ChatConsumer.saveMessage E c content id now).Assures (HearLaw E rooms) ChatGrows ChatGrows
      (fun message s' => ∃ room user, MayJoin E rooms c room ∧ (E.scope c).user = some user ∧
        message ∈ s'.messages ∧ message.room = room.id ∧ message.sender = some user.id ∧
          message.messageType = .text) s := by
  refine Code.assures_bind assures_room fun room s₁ hroom => ?_
  refine Code.assures_bind assures_user fun user s₂ huser => ?_
  have hspoken : Spoken rooms ⟨id, room.id, some user.id, .text, content, false, none, now⟩ := by
    obtain ⟨i, user', -, hfind, huser', hpart⟩ := hroom
    rw [huser.2] at huser'
    cases huser'
    refine ⟨⟨room, user.id, ?_, rfl, hpart⟩, hblank, hlength⟩
    have hid : room.id = i := Table.pk_of_find hfind
    rw [hid]
    exact hfind
  refine Code.Assures.post (assures_create hspoken) fun message s' hm => ?_
  obtain ⟨rfl, hstored⟩ := hm
  exact ⟨room, user, hroom, huser.2, hstored, rfl, rfl, rfl⟩

theorem assures_handleContent {content : String} (hblank : content ≠ "" → ¬ Blank content) (id : Pk) (now : Time) :
    (ChatConsumer.handleContent E c content id now).Assures (HearLaw E rooms) ChatGrows ChatGrows
      (fun _ _ => True) s := by
  unfold ChatConsumer.handleContent
  split_ifs with hempty hlong
  · exact True.intro
  · exact assures_sendError _
  · have hlength : content.length ≤ 2000 := Nat.le_of_not_lt hlong
    refine Code.assures_bind (assures_saveMessage (hblank hempty) hlength id now) fun message s₁ hsaved => ?_
    refine Code.assures_bind assures_user fun user s₂ huser => ?_
    obtain ⟨room, user', hmay, huser', hstored, hroom, hsender, htype⟩ := hsaved
    rw [huser.2] at huser'
    cases huser'
    rw [huser.1]
    exact assures_groupSend hmay huser.2 ⟨rfl, rfl, message, hstored, rfl, hroom, hsender, htype, rfl, rfl⟩

theorem assures_handleChatMessage (data : Json) (id : Pk) (now : Time) :
    (ChatConsumer.handleChatMessage E c data id now).Assures (HearLaw E rooms) ChatGrows ChatGrows
      (fun _ _ => True) s := by
  refine Code.assures_bind (Code.assures_ofExcept (P := fun _ _ => True) fun _ _ => trivial) fun content s₁ _ => ?_
  generalize content.getD (.str "") = v
  cases v with
  | str text => exact assures_handleContent not_blank_strip id now
  | _ => exact True.intro

theorem assures_receive (hmay : ∃ room, MayJoin E rooms c room) (textData : Option String) (id : Pk) (now : Time) :
    (ChatConsumer.receive E c textData id now).Assures (HearLaw E rooms) ChatGrows ChatGrows (fun _ _ => True) s := by
  obtain ⟨room, hmay⟩ := hmay
  unfold ChatConsumer.receive
  split
  · trivial
  · split_ifs
    · trivial
    · split
      · exact assures_sendError _
      · trivial
      · refine Code.assures_bind (Code.assures_ofExcept (P := fun _ _ => True) fun _ _ => trivial) fun msgType _ _ => ?_
        split_ifs
        · exact assures_handleChatMessage _ id now
        · refine Code.assures_bind assures_user fun user s₁ huser => ?_
          refine Code.assures_bind (Code.assures_ofExcept (P := fun _ _ => True) fun _ _ => trivial) fun _ _ _ => ?_
          exact assures_groupSend hmay huser.2 ⟨rfl, rfl⟩
        · refine Code.assures_bind (assures_silent (keeps_markMessagesRead now) (silent_markMessagesRead now)) ?_
          intro _ _ _
          refine Code.assures_bind assures_user fun user s₁ huser => ?_
          exact assures_groupSend hmay huser.2 rfl
        · trivial

theorem assures_connect :
    (ChatConsumer.connect E c).Assures (HearLaw E rooms) ChatGrows ChatGrows (fun _ _ => True) s := by
  have hget : (ChatConsumer.getRoom E (E.scope c).roomId).Assures (HearLaw E rooms) ChatGrows ChatGrows
      (fun found _ => ∀ room, found = some room →
        ∃ id, E.py.int (E.scope c).roomId = some id ∧ rooms.find id = some room) s := by
    apply Code.assures_query ChatGrows.refl
    intro s' found _ hJ h room hroom
    split at h
    · cases h
    · rename_i id hid
      cases h
      rw [hJ.law.sameRooms] at hroom
      exact ⟨id, hid, (Option.filter_eq_some_iff.1 hroom).1⟩
  unfold ChatConsumer.connect
  cases huser : (E.scope c).user with
  | none => exact assures_send fun h => by cases h
  | some user =>
    refine Code.assures_bind hget fun found s₁ hfound => ?_
    cases found with
    | none => exact assures_send fun h => by cases h
    | some room =>
      dsimp only
      split_ifs with hpart
      · obtain ⟨id, hid, hfind⟩ := hfound room rfl
        have hmay : MayJoin E rooms c room := ⟨id, user, hid, hfind, huser, hpart⟩
        refine Code.assures_bind (P := fun _ _ => True) ?_ fun _ s₂ _ =>
          Code.assures_bind (P := fun _ _ => True) ?_ fun _ s₃ _ => assures_send fun _ => ⟨room, hmay⟩
        · apply Code.assures_act ChatGrows.refl
          intro s' x _ hJ h
          cases h
          obtain ⟨hlaw', hgrows⟩ := hJ.quiet (hJ.law.join hmay) ⟨persists_of_messages rfl, rfl, rfl⟩
          exact ⟨hlaw', hgrows, trivial⟩
        · apply Code.assures_act ChatGrows.refl
          intro s' x _ hJ h
          cases h
          obtain ⟨hlaw', hgrows⟩ := hJ.quiet (hJ.law.group hmay) ⟨persists_of_messages rfl, rfl, rfl⟩
          exact ⟨hlaw', hgrows, trivial⟩
      · exact assures_send fun h => by cases h

/-- frames come on accepted connections -/
def AcceptedFirst : ChatOp → ChatSite → Prop
  | .receive c .., s => (c, .accept) ∈ s.frames
  | _, _ => True

/-- every request -/
theorem assures_chatOp (o : ChatOp) (hJ : HearLaw E rooms s) (hstart : AcceptedFirst o s) :
    (o.code E).Assures (HearLaw E rooms) ChatGrows ChatGrows (fun _ _ => True) s := by
  cases o with
  | connect c => exact assures_connect
  | disconnect c =>
    have hkeeps : (ChatConsumer.disconnect E c).Keeps (ChatLaw E rooms) (StrangerOut True) fun _ => True :=
      keeps_groupDiscard
    exact assures_silent hkeeps silent_groupDiscard
  | receive c textData id now => exact assures_receive (hJ.accepted c hstart) textData id now
  | sendMessage user roomId data id now =>
    exact assures_silent (keeps_sendMessage user roomId data id now) (silent_sendMessage user roomId data id now)

end Law

/-- what all calls keep, and what a running one still assures -/
abbrev HearInv (E : ChatEnv) (rooms : Table ChatRoom) (p : ChatPool) : Prop :=
  CallInv
    (fun s tr => HearLaw E rooms s ∧ AssuredTrace (HearLaw E rooms) (fun _ _ => ChatGrows) (fun _ _ _ _ => True) tr)
    (fun s _ r => r.rest.result = none ∧ r.rest.Assures (HearLaw E rooms) ChatGrows ChatGrows (fun _ _ => True) s) p

/-- **Everything sent is genuine**, after any event of a run. -/
theorem genuine_step {E : ChatEnv} {rooms : Table ChatRoom} {p : ChatPool} (h : HearInv E rooms p) {ev : ChatInput}
    (hev : Starts (fun s _ o => AcceptedFirst o s) p ev) :
    HearInv E rooms (p.step (ChatOp.code E) (fun n _ => n.elim) ev) :=
  h.step (assures_rule ChatGrows.refl (fun _ _ _ => ChatGrows.trans) (fun _ _ _ _ hstep => hstep)
    (fun o s hJ hs => (assures_chatOp o hJ hs).start (ChatGrows.refl s) hJ) fun n => n.elim) hev

/-! ## No message twice -/

/-- the message that is sent -/
def ChatEvent.messageId : ChatEvent → Option Pk
  | .chatMessage id .. => some id
  | _ => none

/-- a message with this id is stored -/
def HasMessage (s : ChatSite) (id : Pk) : Prop := ∃ m ∈ s.messages, m.id = id

/-- the ids of the messages sent to groups, in order -/
def sentIds (s : ChatSite) : List Pk := s.events.filterMap fun x => x.2.messageId

/-- a statement that sends no message to a group -/
structure Unsent (s s' : ChatSite) : Prop where
  kept : ∀ id, HasMessage s id → HasMessage s' id
  sent : sentIds s' = sentIds s

section Once

variable {E : ChatEnv} {c : ℕ}

theorem Unsent.refl (s : ChatSite) : Unsent s s := ⟨fun _ h => h, rfl⟩

theorem Silent.unsent {s s' : ChatSite} (h : Silent s s') : Unsent s s' := by
  refine ⟨?_, by rw [sentIds, sentIds, h.events]⟩
  rintro id ⟨m, hm, rfl⟩
  obtain ⟨m', hm', e⟩ := h.messages m hm
  exact ⟨m', hm', by rw [← e]⟩

theorem Unsent.claims {s s' : ChatSite} (g : Option Pk) (h : Unsent s s') : Claims HasMessage sentIds s s' g g :=
  ⟨h.kept, .quiet g h.sent⟩

theorem follows_unsent {A : Type} {x : ChatCall A} (h : x.Each Unsent) (g : Option Pk) :
    x.Follows (Claims HasMessage sentIds) (fun _ g' => g' = g) g :=
  Code.follows_each (fun _ _ g' hs => hs.claims g') h

theorem follows_unsent' {A : Type} {x : ChatCall A} (h : x.Each Unsent) :
    x.Follows (Claims HasMessage sentIds) (fun _ _ => True) none :=
  (follows_unsent h none).post fun _ _ _ => trivial

theorem follows_silent {A : Type} {x : ChatCall A} (h : x.Each Silent) (g : Option Pk) :
    x.Follows (Claims HasMessage sentIds) (fun _ g' => g' = g) g :=
  Code.follows_each (fun _ _ g' hs => hs.unsent.claims g') h

theorem unsent_send (frame : ServerFrame) : (ChatConsumer.send c frame).Each Unsent := by
  apply Code.each_act Unsent.refl
  intro s x h
  cases h
  exact ⟨fun _ h => h, rfl⟩

/-- another event than a chat message -/
theorem unsent_groupSend {event : ChatEvent} (hevent : event.messageId = none) :
    (ChatConsumer.groupSend E c event).Each Unsent := by
  apply Code.each_act Unsent.refl
  intro s x h
  cases h
  exact ⟨fun _ h => h, by simp [sentIds, hevent]⟩

/-- the id of the new message is claimed -/
theorem follows_saveMessage (content : String) (id : Pk) (now : Time) :
    (ChatConsumer.saveMessage E c content id now).Follows (Claims HasMessage sentIds)
      (fun message g => g = some message.id) none := by
  refine Code.follows_bind (follows_silent (Code.each_query Silent.refl _) none) fun room g hg => ?_
  subst hg
  refine Code.follows_bind (follows_silent (Code.each_ofExcept _) none) fun user g hg => ?_
  subst hg
  apply Code.follows_act fun s g => (Unsent.refl s).claims g
  intro s x h
  split_ifs at h with hnull hdup
  cases h
  refine ⟨some id, ⟨?_, .claim id rfl hdup ⟨_, List.mem_append_right _ (List.mem_singleton_self _), rfl⟩⟩, rfl⟩
  rintro k ⟨m, hm, rfl⟩
  exact ⟨m, List.mem_append_left _ hm, rfl⟩

theorem follows_handleContent (content : String) (id : Pk) (now : Time) :
    (ChatConsumer.handleContent E c content id now).Follows (Claims HasMessage sentIds) (fun _ _ => True) none := by
  unfold ChatConsumer.handleContent
  split_ifs with hempty hlong
  · trivial
  · exact follows_unsent' (unsent_send _)
  · refine Code.follows_bind (follows_saveMessage content id now) fun message g hg => ?_
    subst hg
    refine Code.follows_bind (follows_silent (Code.each_ofExcept _) _) fun user g hg => ?_
    subst hg
    apply Code.follows_act fun s g => (Unsent.refl s).claims g
    intro s x h
    cases h
    refine ⟨none, ⟨fun _ h => h, .post message.id ?_⟩, trivial⟩
    simp [sentIds, ChatEvent.messageId]

theorem follows_handleChatMessage (data : Json) (id : Pk) (now : Time) :
    (ChatConsumer.handleChatMessage E c data id now).Follows (Claims HasMessage sentIds) (fun _ _ => True) none := by
  refine Code.follows_bind (follows_silent (Code.each_ofExcept _) none) fun content g hg => ?_
  subst hg
  generalize content.getD (.str "") = v
  cases v with
  | str text => exact follows_handleContent _ id now
  | _ => exact True.intro

theorem unsent_handleTyping (data : Json) : (ChatConsumer.handleTyping E c data).Each Unsent := by
  refine Code.each_bind (Code.each_ofExcept _) fun user => ?_
  exact Code.each_bind (Code.each_ofExcept _) fun _ => unsent_groupSend rfl

theorem unsent_of_silent {A : Type} {x : ChatCall A} (h : x.Each Silent) : x.Each Unsent := by
  induction x with
  | ret a => trivial
  | raise e => trivial
  | stmt f next ih =>
    intro s
    exact ⟨(h s).1.unsent, ih s (h s).2⟩

theorem unsent_handleReadReceipt (now : Time) : (ChatConsumer.handleReadReceipt E c now).Each Unsent := by
  refine Code.each_bind (unsent_of_silent (silent_markMessagesRead now)) fun _ => ?_
  exact Code.each_bind (Code.each_ofExcept _) fun _ => unsent_groupSend rfl

theorem follows_receive (textData : Option String) (id : Pk) (now : Time) :
    (ChatConsumer.receive E c textData id now).Follows (Claims HasMessage sentIds) (fun _ _ => True) none := by
  unfold ChatConsumer.receive
  split
  · trivial
  · split_ifs
    · trivial
    · split
      · exact follows_unsent' (unsent_send _)
      · trivial
      · refine Code.follows_bind (follows_silent (Code.each_ofExcept _) none) fun msgType g hg => ?_
        subst hg
        split_ifs
        · exact follows_handleChatMessage _ id now
        · exact follows_unsent' (unsent_handleTyping _)
        · exact follows_unsent' (unsent_handleReadReceipt now)
        · trivial

theorem unsent_connect : (ChatConsumer.connect E c).Each Unsent := by
  unfold ChatConsumer.connect
  split
  · exact unsent_send _
  · refine Code.each_bind (Code.each_query Unsent.refl _) fun found => ?_
    split
    · exact unsent_send _
    · split_ifs
      · have hact : ∀ g : ChatSite → ChatSite, (∀ s, Unsent s (g s)) →
            (Code.act fun s => .ok ((), g s) : ChatCall Unit).Each Unsent := by
          intro g hg
          apply Code.each_act Unsent.refl
          intro s x h
          cases h
          exact hg s
        refine Code.each_bind (hact _ fun s => ⟨fun _ h => h, rfl⟩) fun _ => ?_
        exact Code.each_bind (hact _ fun s => ⟨fun _ h => h, rfl⟩) fun _ => unsent_send _
      · exact unsent_send _

/-- every request -/
theorem follows_chatOp (o : ChatOp) : (o.code E).Follows (Claims HasMessage sentIds) (fun _ _ => True) none := by
  cases o with
  | connect c => exact follows_unsent' unsent_connect
  | disconnect c => exact follows_unsent' (unsent_of_silent silent_groupDiscard)
  | receive c textData id now => exact follows_receive textData id now
  | sendMessage user roomId data id now =>
    exact follows_unsent' (unsent_of_silent (silent_sendMessage user roomId data id now))

end Once

/-- **No message is sent to a group twice**, in any interleaving. -/
theorem chat_posts_once (E : ChatEnv) {s : ChatSite} (hs : s.events = []) (evs : List ChatInput) :
    (sentIds (chatRun E s evs).mem).Nodup :=
  posted_once follows_chatOp (fun n => n.elim) (by rw [sentIds, hs]; rfl) evs

end GigMarketplace
