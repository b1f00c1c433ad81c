/-
What a chat connection hears: the channel layer and the handlers of group events in `apps/chat/consumers.py`.

`Chat.lean` keeps what was sent to a group; here the channel layer puts it into the mailbox of every connection that is
a member of the group at that moment, and a consumer takes its mailbox event by event and writes to its socket. The
layer may lose an event (a full channel, an expired one) but does not reorder a mailbox. The calls of `Chat.lean` run
underneath, in any interleaving. A consumer that has disconnected may still handle what is in its mailbox: the model
allows more than channels does there.

Results:
- `deliveryInv_step`: what was handled and what is still in the mailbox, together, is a subsequence of what the group
  was sent while the connection was a member;
- `only_participants_hear`: every frame that a connection receives is by a party of its room, to a party of its room; a
  chat message is one of the room's stored messages, and nobody is told that they are typing themselves;
- `heard_once`: no connection hears a chat message twice.
-/
import GigMarketplace.ChatEvents

namespace GigMarketplace

open GigMarketplace.Core

/-! ## The channel layer -/

/-- what the handlers of group events write to the socket -/
inductive Broadcast where
  | chatMessage (id senderId : Pk) (senderName content : String) (createdAt : Time)
  | typing (userId : Pk) (userName : String) (isTyping : Json)
  | readReceipt (userId : Pk)

namespace ChatConsumer

/-- `chat_message` -/
def onChatMessage (id senderId : Pk) (senderName content : String) (createdAt : Time) : Option Broadcast :=
  some (.chatMessage id senderId senderName content createdAt)

/-- `typing_indicator`: not sent back to the sender -/
def onTypingIndicator (user : Option ChatUser) (userId : Pk) (userName : String) (isTyping : Json) : Option Broadcast :=
  if some userId ≠ user.map ChatUser.id then some (.typing userId userName isTyping) else none

/-- `read_receipt` -/
def onReadReceipt (userId : Pk) : Option Broadcast := some (.readReceipt userId)

/-- the handler that an event's type names -/
def handle (E : ChatEnv) (c : ℕ) : ChatEvent → Option Broadcast
  | .chatMessage id senderId senderName content createdAt => onChatMessage id senderId senderName content createdAt
  | .typingIndicator userId userName isTyping => onTypingIndicator (E.scope c).user userId userName isTyping
  | .readReceipt userId => onReadReceipt userId

end ChatConsumer

structure Delivery where
  pool : ChatPool
  /-- what the layer holds for each connection -/
  mailbox : ℕ → List ChatEvent
  /-- what each connection's consumer has handled, in order -/
  handled : ℕ → List ChatEvent

inductive DeliveryEvent where
  | chat (ev : ChatInput)
  /-- the consumer handles its next event -/
  | dispatch (c : ℕ)
  /-- the layer loses the event at a position of a mailbox -/
  | lose (c i : ℕ)

/-- what a statement sends to the groups that `c` is a member of when it runs -/
def offers (c : ℕ) (s s' : ChatSite) : List ChatEvent :=
  ((s'.events.drop s.events.length).filter fun x => (x.1, c) ∈ s.groups).map Prod.snd

def Delivery.step (E : ChatEnv) (d : Delivery) : DeliveryEvent → Delivery
  | .chat ev =>
    let pool := d.pool.step (ChatOp.code E) (fun n _ => n.elim) ev
    { d with pool, mailbox := fun c => d.mailbox c ++ offers c d.pool.mem pool.mem }
  | .dispatch c =>
    match d.mailbox c with
    | [] => d
    | event :: rest =>
      { d with
        mailbox := Function.update d.mailbox c rest
        handled := Function.update d.handled c (d.handled c ++ [event]) }
  | .lose c i => { d with mailbox := Function.update d.mailbox c ((d.mailbox c).eraseIdx i) }

def Delivery.init (s : ChatSite) : Delivery := ⟨Pool.init s, fun _ => [], fun _ => []⟩

def Delivery.run (E : ChatEnv) (d : Delivery) (evs : List DeliveryEvent) : Delivery := evs.foldl (Delivery.step E) d

/-- what has been written to the socket, in order -/
def Delivery.socket (E : ChatEnv) (d : Delivery) (c : ℕ) : List Broadcast :=
  (d.handled c).filterMap (ChatConsumer.handle E c)

/-- frames come on accepted connections, all along the run -/
def FramesAccepted (E : ChatEnv) : Delivery → List DeliveryEvent → Prop
  | _, [] => True
  | d, ev :: evs =>
    (match ev with
      | .chat ev => Starts (fun s _ o => AcceptedFirst o s) d.pool ev
      | _ => True) ∧ FramesAccepted E (d.step E ev) evs

/-! ## What a connection is offered -/

abbrev ChatEntry := Entry ChatSite Failure Unit ChatOp

/-- what was sent to the groups of `c` while it was a member -/
def offered (c : ℕ) (tr : List ChatEntry) : List ChatEvent := tr.flatMap fun e => offers c e.before e.after

/-- what was sent to the group that the URL of `c` names -/
def groupLog (E : ChatEnv) (c : ℕ) (s : ChatSite) : List ChatEvent :=
  (s.events.filter fun x => x.1 = ChatConsumer.roomGroupName E c).map Prod.snd

structure DeliveryInv (E : ChatEnv) (rooms : Table ChatRoom) (d : Delivery) : Prop where
  hear : HearInv E rooms d.pool
  offered : ∀ c, (d.handled c ++ d.mailbox c).Sublist (offered c d.pool.trace)
  sent : ∀ c, (GigMarketplace.offered c d.pool.trace).Sublist (groupLog E c d.pool.mem)
  member : ∀ c, GigMarketplace.offered c d.pool.trace ≠ [] → ∃ room, MayJoin E rooms c room

section Delivery

variable {E : ChatEnv} {rooms : Table ChatRoom} {d : Delivery} {s s' : ChatSite} {c : ℕ}

theorem offers_self (c : ℕ) (s : ChatSite) : offers c s s = [] := by
  simp [offers]

theorem offered_snoc (c : ℕ) (tr : List ChatEntry) (e : ChatEntry) :
    offered c (tr ++ [e]) = offered c tr ++ offers c e.before e.after := by
  simp [offered]

/-- members of a group have its name in their URL -/
theorem offers_sublist (hlaw : ChatLaw E rooms s) (hgrows : s.events <+: s'.events) (c : ℕ) :
    ∃ new, groupLog E c s' = groupLog E c s ++ new ∧ (offers c s s').Sublist new := by
  obtain ⟨sent, hsent⟩ := hgrows
  refine ⟨(sent.filter fun x => x.1 = ChatConsumer.roomGroupName E c).map Prod.snd, ?_, ?_⟩
  · simp [groupLog, ← hsent]
  · unfold offers
    rw [← hsent, List.drop_left]
    apply List.Sublist.map
    apply List.monotone_filter_right
    intro x hx
    exact decide_eq_true (hlaw.groups _ (of_decide_eq_true hx)).1

theorem mayJoin_of_offers (hlaw : ChatLaw E rooms s) (h : offers c s s' ≠ []) : ∃ room, MayJoin E rooms c room := by
  obtain ⟨ev, hev⟩ := List.exists_mem_of_ne_nil _ h
  obtain ⟨x, hx, -⟩ := List.mem_map.1 hev
  exact (hlaw.groups _ (of_decide_eq_true (List.mem_filter.1 hx).2)).2

/-- **One event** of the machine. -/
theorem deliveryInv_step (h : DeliveryInv E rooms d) {ev : DeliveryEvent}
    (hev : ∀ i, ev = .chat i → Starts (fun s _ o => AcceptedFirst o s) d.pool i) :
    DeliveryInv E rooms (d.step E ev) := by
  cases ev with
  | chat ev =>
    have hnext := genuine_step h.hear (hev ev rfl)
    rcases d.pool.step_entry (ChatOp.code E) (fun n _ => n.elim) ev (fun n => n.elim) with
      ⟨hmem, htrace⟩ | ⟨e, htrace, hbefore, hafter⟩
    · refine ⟨hnext, fun c => ?_, fun c => ?_, fun c hc => ?_⟩
      · simp only [Delivery.step, htrace, hmem, offers_self, List.append_nil]
        exact h.offered c
      · simp only [Delivery.step, htrace, hmem]
        exact h.sent c
      · simp only [Delivery.step, htrace] at hc
        exact h.member c hc
    · have hlaw := h.hear.inv.shared.1.law
      have hgrows : ChatGrows d.pool.mem (d.pool.step (ChatOp.code E) (fun n _ => n.elim) ev).mem := by
        have hmem : e ∈ (d.pool.step (ChatOp.code E) (fun n _ => n.elim) ev).trace := by
          rw [htrace]
          exact List.mem_append_right _ (List.mem_singleton_self _)
        have he := (hnext.inv.shared.2 e hmem).2.1
        rwa [hbefore, hafter] at he
      have hoffered : ∀ c, offered c (d.pool.step (ChatOp.code E) (fun n _ => n.elim) ev).trace =
          offered c d.pool.trace ++ offers c d.pool.mem (d.pool.step (ChatOp.code E) (fun n _ => n.elim) ev).mem := by
        intro c
        rw [htrace, offered_snoc, hbefore, hafter]
      refine ⟨hnext, fun c => ?_, fun c => ?_, fun c hc => ?_⟩
      · simp only [Delivery.step, hoffered]
        rw [← List.append_assoc]
        exact (h.offered c).append (List.Sublist.refl _)
      · obtain ⟨new, hnew, hsub⟩ := offers_sublist hlaw hgrows.events c
        simp only [Delivery.step, hoffered, hnew]
        exact (h.sent c).append hsub
      · simp only [Delivery.step, hoffered] at hc
        by_cases hold : offered c d.pool.trace = []
        · rw [hold, List.nil_append] at hc
          exact mayJoin_of_offers hlaw hc
        · exact h.member c hold
  | dispatch c =>
    simp only [Delivery.step]
    split
    · exact h
    · rename_i event rest hbox
      refine ⟨h.hear, fun c' => ?_, h.sent, h.member⟩
      by_cases hc : c' = c
      · subst hc
        have := h.offered c'
        rw [hbox] at this
        simpa using this
      · simp only [Function.update_of_ne hc]
        exact h.offered c'
  | lose c i =>
    refine ⟨h.hear, fun c' => ?_, h.sent, h.member⟩
    by_cases hc : c' = c
    · subst hc
      simp only [Delivery.step, Function.update_self]
      exact ((List.Sublist.refl _).append (List.eraseIdx_sublist _ _)).trans (h.offered c')
    · simp only [Delivery.step, Function.update_of_ne hc]
      exact h.offered c'

theorem deliveryInv_run {evs : List DeliveryEvent} (h : DeliveryInv E rooms d) (hevs : FramesAccepted E d evs) :
    DeliveryInv E rooms (d.run E evs) := by
  induction evs generalizing d with
  | nil => exact h
  | cons ev evs ih =>
    apply ih _ hevs.2
    apply deliveryInv_step h
    rintro i rfl
    exact hevs.1

/-- nobody is connected and nothing has been sent -/
structure NotConnected (s : ChatSite) : Prop where
  messages : ∀ m ∈ s.messages, m.messageType ≠ .system → Spoken s.rooms m
  joined : ∀ c, s.joined c = none
  groups : s.groups = []
  events : s.events = []
  frames : s.frames = []

theorem deliveryInv_init (h : NotConnected s) : DeliveryInv E s.rooms (Delivery.init s) := by
  have hlaw : ChatLaw E s.rooms s := by
    refine ⟨rfl, h.messages, ?_, ?_⟩
    · intro c room hjoined
      rw [h.joined c] at hjoined
      cases hjoined
    · intro g hg
      rw [h.groups] at hg
      cases hg
  refine ⟨callInv_init ⟨⟨hlaw, ?_, ?_⟩, fun e he => by cases he⟩, fun c => List.Sublist.refl _,
    fun c => List.nil_sublist _, fun c hc => absurd rfl hc⟩
  · intro x hx
    rw [h.events] at hx
    cases hx
  · intro c hc
    rw [h.frames] at hc
    cases hc

/-! ## Who hears what -/

/-- the frame is by a party of the room; a chat message is one of its stored messages; the listener is not told that
they are typing themselves -/
def Broadcast.For (messages : List Message) (room : ChatRoom) (listener : ChatUser) : Broadcast → Prop
  | .chatMessage id senderId _ content createdAt => room.isParticipant senderId = true ∧
      ∃ m ∈ messages, m.id = id ∧ m.room = room.id ∧ m.sender = some senderId ∧ m.messageType = .text ∧
        m.content = content ∧ m.createdAt = createdAt
  | .typing userId _ _ => room.isParticipant userId = true ∧ userId ≠ listener.id
  | .readReceipt userId => room.isParticipant userId = true

/-- connections to one group may join one room -/
theorem MayJoin.same_room {c c' : ℕ} {room room' : ChatRoom} (h : MayJoin E rooms c room)
    (h' : MayJoin E rooms c' room') (hgroup : ChatConsumer.roomGroupName E c = ChatConsumer.roomGroupName E c') :
    room = room' := by
  obtain ⟨id, -, hid, hfind, -⟩ := h
  obtain ⟨id', -, hid', hfind', -⟩ := h'
  have hurl : (E.scope c).roomId = (E.scope c').roomId := String.append_right_inj _ |>.1 hgroup
  rw [hurl, hid'] at hid
  cases hid
  rw [hfind'] at hfind
  cases hfind
  rfl

theorem MayJoin.participant {c : ℕ} {room : ChatRoom} {user : ChatUser} (h : MayJoin E rooms c room)
    (huser : (E.scope c).user = some user) : room.isParticipant user.id = true := by
  obtain ⟨-, user', -, -, huser', hpart⟩ := h
  rw [huser] at huser'
  cases huser'
  exact hpart

/-- a handled event, as its listener gets it -/
theorem forListener_of_by {c : ℕ} {ev : ChatEvent} {b : Broadcast} {messages : List Message} {room : ChatRoom}
    {user speaker : ChatUser} (hhandle : ChatConsumer.handle E c ev = some b) (huser : (E.scope c).user = some user)
    (hspeaker : room.isParticipant speaker.id = true) (hby : ev.By messages room speaker) :
    b.For messages room user := by
  cases ev with
  | chatMessage id senderId senderName content createdAt =>
    cases hhandle
    obtain ⟨rfl, rfl, hstored⟩ := hby
    exact ⟨hspeaker, hstored⟩
  | typingIndicator userId userName isTyping =>
    simp only [ChatConsumer.handle, ChatConsumer.onTypingIndicator, huser, Option.map_some] at hhandle
    split_ifs at hhandle with hother
    cases hhandle
    obtain ⟨rfl, rfl⟩ := hby
    exact ⟨hspeaker, fun heq => hother (congrArg some heq)⟩
  | readReceipt userId =>
    cases hhandle
    cases hby
    exact hspeaker

/-! ## Two connections -/

/-- the worker's connection and the employer's -/
def demoPair : ChatEnv := { demoChatEnv with scope := fun c => ⟨"1", some (if c = 0 then ⟨2, "Ali"⟩ else ⟨1, "Olim"⟩)⟩ }

/-- both connect, the worker's frame is sent, and the employer's consumer handles it -/
def demoHearing : List DeliveryEvent :=
  [.chat (.start 0 (.connect 0)), .chat (.step 0), .chat (.step 0), .chat (.step 0),
    .chat (.start 1 (.connect 1)), .chat (.step 1), .chat (.step 1), .chat (.step 1),
    .chat (.start 2 (.receive 0 (some demoFrame) 1 100)), .chat (.step 2), .chat (.step 2), .dispatch 1]

theorem demoChat_notConnected : NotConnected demoChat :=
  ⟨fun _ hm => absurd hm List.not_mem_nil, fun _ => rfl, rfl, rfl, rfl⟩

/-- the worker was accepted before the frame -/
theorem demoHearing_accepted : FramesAccepted demoPair (Delivery.init demoChat) demoHearing := by
  have hframes : (0, .accept) ∈ ((Delivery.init demoChat).run demoPair (demoHearing.take 8)).pool.mem.frames := by
    decide +kernel
  exact ⟨fun _ => trivial, trivial, trivial, trivial, fun _ => trivial, trivial, trivial, trivial, fun _ => hframes,
    trivial, trivial, trivial, trivial⟩

/-- **Only participants hear.** From a state without connections, with any calls in any interleaving, any losses and any
pace of delivery: a connection to whose socket a frame was written belongs to a party of the room that its URL names;
the frame is by a party of that room too; a chat message in it is one of the room's stored messages, with its sender,
text and time; and a typing indicator is never the listener's own. -/
theorem only_participants_hear (E : ChatEnv) (s : ChatSite) (hs : NotConnected s) (evs : List DeliveryEvent)
    (hevs : FramesAccepted E (Delivery.init s) evs) (c : ℕ) (b : Broadcast)
    (hb : b ∈ ((Delivery.init s).run E evs).socket E c) :
    ∃ room user, MayJoin E s.rooms c room ∧ (E.scope c).user = some user ∧ room.isParticipant user.id = true ∧
      b.For ((Delivery.init s).run E evs).pool.mem.messages room user := by
  have h := deliveryInv_run (deliveryInv_init (E := E) hs) hevs
  obtain ⟨ev, hev, hhandle⟩ := List.mem_filterMap.1 hb
  have hoffered := (h.offered c).subset (List.mem_append_left _ hev)
  obtain ⟨room, hmay⟩ := h.member c (List.ne_nil_of_mem hoffered)
  have huser : ∃ user, (E.scope c).user = some user := by
    obtain ⟨-, user, -, -, huser, -⟩ := hmay
    exact ⟨user, huser⟩
  obtain ⟨user, huser⟩ := huser
  -- it was sent to the group of `c`, by someone who may join the same room
  obtain ⟨x, hx, rfl⟩ := List.mem_map.1 ((h.sent c).subset hoffered)
  obtain ⟨hsent, hgroup⟩ := List.mem_filter.1 hx
  obtain ⟨room', speaker, ⟨c', hmay', hspeaker, hgroup'⟩, hby⟩ := h.hear.inv.shared.1.genuine x hsent
  have hroom : room' = room := hmay'.same_room hmay (hgroup'.symm.trans (of_decide_eq_true hgroup))
  subst hroom
  exact ⟨room', user, hmay, huser, hmay.participant huser,
    forListener_of_by hhandle huser (hmay'.participant hspeaker) hby⟩

theorem only_participants_hear_demo :
    ∃ room user, MayJoin demoPair demoChat.rooms 1 room ∧ (demoPair.scope 1).user = some user ∧
      room.isParticipant user.id = true ∧ (Broadcast.chatMessage 1 2 "Ali" "Salom" 100).For
        ((Delivery.init demoChat).run demoPair demoHearing).pool.mem.messages room user :=
  only_participants_hear demoPair demoChat demoChat_notConnected demoHearing demoHearing_accepted 1
    (.chatMessage 1 2 "Ali" "Salom" 100) (List.mem_singleton.2 rfl)

/-! ## Not twice -/

/-- the calls of `Chat.lean` underneath -/
def DeliveryEvent.chat? : DeliveryEvent → Option ChatInput
  | .chat ev => some ev
  | _ => none

theorem pool_run (d : Delivery) (evs : List DeliveryEvent) :
    (d.run E evs).pool = d.pool.run (ChatOp.code E) (fun n _ => n.elim) (evs.filterMap DeliveryEvent.chat?) := by
  induction evs generalizing d with
  | nil => rfl
  | cons ev evs ih =>
    have hstep : (d.step E ev).pool = match ev with
        | .chat ev => d.pool.step (ChatOp.code E) (fun n _ => n.elim) ev
        | _ => d.pool := by
      cases ev with
      | chat ev => rfl
      | dispatch c =>
        simp only [Delivery.step]
        split <;> rfl
      | lose c i => rfl
    calc ((d.step E ev).run E evs).pool
      _ = (d.step E ev).pool.run (ChatOp.code E) (fun n _ => n.elim) (evs.filterMap DeliveryEvent.chat?) := ih _
      _ = d.pool.run (ChatOp.code E) (fun n _ => n.elim) ((ev :: evs).filterMap DeliveryEvent.chat?) := by
        rw [hstep]
        cases ev <;> rfl

def Broadcast.messageId : Broadcast → Option Pk
  | .chatMessage id .. => some id
  | _ => none

theorem handle_messageId (c : ℕ) (ev : ChatEvent) :
    (ChatConsumer.handle E c ev).bind Broadcast.messageId = ev.messageId := by
  cases ev with
  | typingIndicator userId userName isTyping =>
    simp only [ChatConsumer.handle, ChatConsumer.onTypingIndicator]
    split_ifs <;> rfl
  | _ => rfl

/-- **No connection hears a chat message twice.** -/
theorem heard_once (E : ChatEnv) (s : ChatSite) (hs : NotConnected s) (evs : List DeliveryEvent)
    (hevs : FramesAccepted E (Delivery.init s) evs) (c : ℕ) :
    ((((Delivery.init s).run E evs).socket E c).filterMap Broadcast.messageId).Nodup := by
  have h := deliveryInv_run (deliveryInv_init (E := E) hs) hevs
  have hnodup : (sentIds ((Delivery.init s).run E evs).pool.mem).Nodup := by
    rw [pool_run]
    exact chat_posts_once E hs.events _
  have hsub : (((Delivery.init s).run E evs).handled c).Sublist
      (((Delivery.init s).run E evs).pool.mem.events.map Prod.snd) := by
    refine (((List.sublist_append_left _ _).trans (h.offered c)).trans (h.sent c)).trans ?_
    exact List.filter_sublist.map _
  have hids : (((Delivery.init s).run E evs).socket E c).filterMap Broadcast.messageId =
      (((Delivery.init s).run E evs).handled c).filterMap ChatEvent.messageId := by
    rw [Delivery.socket, List.filterMap_filterMap]
    exact congrFun (congrArg _ (funext (handle_messageId c))) _
  have hsent : sentIds ((Delivery.init s).run E evs).pool.mem =
      (((Delivery.init s).run E evs).pool.mem.events.map Prod.snd).filterMap ChatEvent.messageId := by
    rw [List.filterMap_map]
    rfl
  rw [hids]
  rw [hsent] at hnodup
  exact hnodup.sublist (hsub.filterMap _)

theorem heard_once_demo :
    ((((Delivery.init demoChat).run demoPair demoHearing).socket demoPair 1).filterMap Broadcast.messageId).Nodup :=
  heard_once demoPair demoChat demoChat_notConnected demoHearing demoHearing_accepted 1

end Delivery

end GigMarketplace
