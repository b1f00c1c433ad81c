/-
The two ways to send a message: over a connection (connect, then a chat_message frame) and by a post.

Both check the room, the sender and the text, each in its own code. `CanPost` is what the post checks. The connection
asks for one thing more, that the room is active; and it alone tells the room's group about the message.

Results:
- `run_socket`, `run_post`: what each path leaves;
- `agree_iff`, `stored_alike_iff`: when the paths agree, and when at least they store the same.
-/
import GigMarketplace.Frames

namespace GigMarketplace

open GigMarketplace.Core

/-! ## The paths -/

/-- a frame on a new connection -/
def viaSocket (E : ChatEnv) (c : ℕ) (text : String) (id : Pk) (now : Time) : ChatCall Unit := do
  ChatConsumer.connect E c
  ChatConsumer.receive E c (some text) id now

/-- a chat_message frame with the content -/
structure ChatFrame (E : ChatEnv) (text content : String) : Prop where
  text_ne : text ≠ ""
  loads : ∃ fields, E.loads text = .value (.obj fields) ∧ getField fields "type" = some (.str "chat_message") ∧
    getField fields "content" = some (.str content)

/-- a body with the content -/
def PostBody (data : Json) (content : String) : Prop :=
  ∃ fields, data = .obj fields ∧ getField fields "content" = some (.str content)

/-- `channel_group_name` -/
def ChatRoom.channelGroupName (room : ChatRoom) : String := "chat_" ++ toString room.id

/-- the message is stored, and the room's group is told -/
def Delivered (room : ChatRoom) (user : ChatUser) (m : Message) (s s' : ChatSite) : Prop :=
  s'.messages = s.messages ++ [m] ∧ s'.events = s.events ++ [(room.channelGroupName, announcement user m)]

/-- both refuse, or both store one message and tell the room; the paths left `s₁` and `s₂` -/
def Agree (room : ChatRoom) (user : ChatUser) (s s₁ s₂ : ChatSite) : Prop :=
  (s₁.messages = s.messages ∧ s₂.messages = s.messages) ∨
    ∃ m, Delivered room user m s s₁ ∧ Delivered room user m s s₂

/-- what is left of the text is not blank, at most 2000 characters long and has no null character -/
def Sendable (content : String) : Prop :=
  strip content ≠ "" ∧ (strip content).length ≤ 2000 ∧ hasNull (strip content) = false

/-- what SendMessageView checks -/
def CanPost (room : ChatRoom) (user : ChatUser) (content : String) : Prop :=
  room.isParticipant user.id = true ∧ Sendable content

instance (content : String) : Decidable (Sendable content) := inferInstanceAs (Decidable (_ ∧ _ ∧ _))

instance (room : ChatRoom) (user : ChatUser) (content : String) : Decidable (CanPost room user content) :=
  inferInstanceAs (Decidable (_ ∧ _))

/-! ## The texts -/

section Texts

variable {E : ChatEnv} {text content : String} {data : Json}

theorem ofText_chatFrame (h : ChatFrame E text content) : Frame.ofText E text = Frame.ofContent (strip content) := by
  obtain ⟨fields, hloads, htype, hcontent⟩ := h.loads
  rw [Frame.ofText, if_neg h.text_ne, hloads]
  simp [Frame.ofFields, Frame.ofChat, htype, hcontent, Json.eqStr]

theorem ofContent_sendable (h : Sendable content) : Frame.ofContent (strip content) = .message (strip content) := by
  obtain ⟨hne, hlen, hnull⟩ := h
  simp [Frame.ofContent, hne, Nat.not_lt.2 hlen, hnull]

theorem serve_not_sendable (h : ¬ Sendable content) (c : ℕ) (room : ChatRoom) (user : ChatUser) (id : Pk) (now : Time)
    (s : ChatSite) : ((Frame.ofContent (strip content)).serve E c room user id now s).2.messages = s.messages := by
  unfold Frame.ofContent
  split_ifs with hempty hlong hnull
  · rfl
  · rfl
  · rfl
  · exact absurd ⟨hempty, Nat.le_of_not_lt hlong, by simpa using hnull⟩ h

/-- the two sets of checks on the text are the same -/
theorem validate_postBody (h : PostBody data content) :
    SendMessageSerializer.validate data = if Sendable content then some (strip content) else none := by
  obtain ⟨fields, rfl, hcontent⟩ := h
  have hchecks : Sendable content ↔ ¬ (strip content = "" ∨ hasNull (strip content) ∨ (strip content).length < 0 ∨
      2000 < (strip content).length) := by
    simp only [Sendable, not_or, Nat.not_lt, Nat.not_lt_zero, not_false_eq_true, true_and, Bool.not_eq_true]
    exact and_congr_right' and_comm
  have hfield : SendMessageSerializer.validate (.obj fields) = charField 0 2000 (.str content) := by
    dsimp only [SendMessageSerializer.validate]
    rw [hcontent, Option.bind_some]
  rw [hfield]
  dsimp only [charField, fieldText]
  rw [Option.bind_some]
  by_cases hsend : Sendable content
  · rw [if_pos hsend, if_neg (hchecks.1 hsend)]
  · rw [if_neg hsend, if_pos (not_not.1 fun hno => hsend (hchecks.2 hno))]

end Texts

/-! ## What each path leaves -/

section Paths

variable {E : ChatEnv} {c : ℕ} {s : ChatSite} {room : ChatRoom} {user : ChatUser} {text content : String} {data : Json}
  {n id : Pk} {now : Time}

/-- a consumer without a room stores nothing -/
theorem receive_unjoined (hclosed : s.joined c = none) (hframe : ChatFrame E text content) :
    ((ChatConsumer.receive E c (some text) id now).run s).2.messages = s.messages := by
  obtain ⟨fields, hloads, htype, hcontent⟩ := hframe.loads
  have hroom : (ChatConsumer.room c).run s = (.error (.exc .attributeError), s) := by
    rw [ChatConsumer.room, Code.run_query, hclosed]
  rw [receive_obj hframe.text_ne hloads, htype, if_pos (by decide), handleChatMessage_text (by rw [hcontent]; rfl)]
  unfold ChatConsumer.handleContent
  split_ifs
  · rfl
  · rfl
  · have hsave : (ChatConsumer.saveMessage E c (strip content) id now).run s = (.error (.exc .attributeError), s) :=
      Code.run_bind_error hroom _
    rw [Code.run_bind_error hsave]

variable (hroom : s.rooms.find n = some room) (hurl : E.py.int (E.scope c).roomId = some n)
  (huser : (E.scope c).user = some user) (hnew : s.joined c = none) (hframe : ChatFrame E text content)
  (hbody : PostBody data content) (hfresh : ∀ m ∈ s.messages, m.id ≠ id)

section Socket

include hroom hurl huser hnew hframe hfresh

/-- the connection stores the message and tells its group, if the room is active -/
theorem socket_outcome (now : Time) :
    if room.isActive = true ∧ CanPost room user content then
      ((viaSocket E c text id now).run s).2.messages =
          s.messages ++ [textMessage room user (strip content) id now] ∧
        ((viaSocket E c text id now).run s).2.events =
          s.events ++ [(ChatConsumer.roomGroupName E c, announcement user (textMessage room user (strip content) id now))]
    else ((viaSocket E c text id now).run s).2.messages = s.messages := by
  unfold viaSocket
  cases connect_outcome (E := E) (c := c) (s := s) with
  | anonymous h =>
    rw [huser] at h
    cases h
  | badId h hid =>
    rw [hurl] at hid
    cases hid
  | refused h hid hno hr =>
    rw [Code.run_bind_ok hr, if_neg]
    · exact receive_unjoined hnew hframe
    · rintro ⟨hactive, hpart, -⟩
      exact hno room ((admits_iff hurl huser).2 ⟨hroom, hpart, hactive⟩)
  | joined h hr =>
    obtain ⟨hfind, hpart, hactive⟩ := (admits_iff hurl huser).1 h
    obtain rfl := Option.some.inj (hroom.symm.trans hfind)
    rw [Code.run_bind_ok hr, run_receive (joined_join ..) huser text now hfresh, ofText_chatFrame hframe]
    by_cases hsend : Sendable content
    · rw [if_pos ⟨hactive, hpart, hsend⟩, ofContent_sendable hsend]
      exact ⟨rfl, rfl⟩
    · rw [if_neg fun h => hsend h.2.2]
      exact serve_not_sendable hsend ..

end Socket

section Post

include hroom

theorem run_getRoomOr404 (user : ChatUser) : (SendMessageView.getRoomOr404 n user.id).run s =
    if room.isParticipant user.id then (.ok room, s)
    else (.error (.exc (.forbidden "You are not a participant of this chat room.")), s) := by
  unfold SendMessageView.getRoomOr404
  rw [Code.run_bind, Code.run_query, hroom]
  dsimp only
  by_cases hpart : room.isParticipant user.id = true
  · rw [if_pos hpart, Code.raiseIf_neg (not_not.2 hpart)]
    rfl
  · rw [if_neg hpart, Code.raiseIf_pos hpart]
    rfl

include hbody hfresh

/-- the post stores the message, and tells nobody -/
theorem post_outcome (user : ChatUser) (now : Time) :
    ((SendMessageView.post user n data id now).run s).2 =
      if CanPost room user content then
        { s with messages := s.messages ++ [textMessage room user (strip content) id now] }
      else s := by
  unfold SendMessageView.post
  by_cases hpart : room.isParticipant user.id = true
  · rw [Code.run_bind_ok ((run_getRoomOr404 hroom user).trans (if_pos hpart)), validate_postBody hbody]
    by_cases hsend : Sendable content
    · have hcreate := (run_create (m := textMessage room user (strip content) id now) hfresh).trans
        (if_neg (by simp [textMessage, hsend.2.2]))
      rw [if_pos hsend, if_pos ⟨hpart, hsend⟩, Option.elim_some, Code.run_bind_ok (Code.run_ofExcept _ _)]
      exact congrArg Prod.snd (Code.run_bind_ok hcreate _)
    · rw [if_neg hsend, if_neg fun h => hsend h.2, Option.elim_none, Code.run_bind_error (Code.run_ofExcept _ _)]
  · rw [Code.run_bind_error ((run_getRoomOr404 hroom user).trans (if_neg hpart)), if_neg fun h => hpart h.1]

end Post

/-! ## Agreement -/

include hroom hurl huser hnew hframe hbody hfresh

/-- they agree on what both refuse -/
theorem agree_iff : Agree room user s ((viaSocket E c text id now).run s).2
    ((SendMessageView.post user n data id now).run s).2 ↔ ¬ CanPost room user content := by
  have hsocket := socket_outcome hroom hurl huser hnew hframe hfresh now
  have hpost := post_outcome hroom hbody hfresh user now
  by_cases hcan : CanPost room user content
  · -- the post is stored, and its event is missing
    refine iff_of_false ?_ (not_not.2 hcan)
    rw [hpost, if_pos hcan]
    rintro (⟨-, hnone⟩ | ⟨m, -, -, hevents⟩)
    · simp at hnone
    · simp at hevents
  · rw [if_neg fun h => hcan h.2] at hsocket
    refine iff_of_true (Or.inl ⟨hsocket, ?_⟩) hcan
    rw [hpost, if_neg hcan]

/-- they store the same, unless the room is closed -/
theorem stored_alike_iff : ((viaSocket E c text id now).run s).2.messages =
    ((SendMessageView.post user n data id now).run s).2.messages ↔
      (CanPost room user content → room.isActive = true) := by
  have hsocket := socket_outcome hroom hurl huser hnew hframe hfresh now
  rw [post_outcome hroom hbody hfresh user now]
  by_cases hcan : CanPost room user content
  · rw [if_pos hcan]
    by_cases hactive : room.isActive = true
    · rw [if_pos ⟨hactive, hcan⟩] at hsocket
      exact iff_of_true hsocket.1 fun _ => hactive
    · rw [if_neg fun h => hactive h.1] at hsocket
      refine iff_of_false ?_ fun h => hactive (h hcan)
      rw [hsocket]
      simp
  · rw [if_neg fun h => hcan h.2] at hsocket
    rw [if_neg hcan]
    exact iff_of_true hsocket fun h => absurd h hcan

/-- **The paths agree** exactly on what SendMessageView refuses. Both store the same message if the room is active; what
is left of the disagreement is that a post is not announced. -/
theorem paths_agree_iff :
    (Agree room user s ((viaSocket E c text id now).run s).2 ((SendMessageView.post user n data id now).run s).2 ↔
        ¬ CanPost room user content) ∧
      (((viaSocket E c text id now).run s).2.messages =
        ((SendMessageView.post user n data id now).run s).2.messages ↔
          (CanPost room user content → room.isActive = true)) :=
  ⟨agree_iff hroom hurl huser hnew hframe hbody hfresh, stored_alike_iff hroom hurl huser hnew hframe hbody hfresh⟩

end Paths

def demoRoom : ChatRoom := ⟨1, 1, 1, 2, true⟩

def demoAli : ChatUser := ⟨2, "Ali"⟩

/-- the body with the text of `demoFrame` -/
def demoBody : Json := .obj [("content", .str " Salom ")]

/-- the same room, closed -/
def demoClosed : ChatSite := { demoChat with rooms := ⟨[{ demoRoom with isActive := false }], by decide⟩ }

theorem demoFrame_content : ChatFrame demoChatEnv demoFrame " Salom " :=
  ⟨by decide, [("type", .str "chat_message"), ("content", .str " Salom ")], by simp [demoChatEnv], rfl, rfl⟩

theorem demoBody_content : PostBody demoBody " Salom " := ⟨_, rfl, rfl⟩

theorem paths_agree_iff_demo :
    (Agree demoRoom demoAli demoChat ((viaSocket demoChatEnv 0 demoFrame 1 100).run demoChat).2
        ((SendMessageView.post demoAli 1 demoBody 1 100).run demoChat).2 ↔ ¬ CanPost demoRoom demoAli " Salom ") ∧
      (((viaSocket demoChatEnv 0 demoFrame 1 100).run demoChat).2.messages =
        ((SendMessageView.post demoAli 1 demoBody 1 100).run demoChat).2.messages ↔
          (CanPost demoRoom demoAli " Salom " → demoRoom.isActive = true)) :=
  paths_agree_iff rfl rfl rfl rfl demoFrame_content demoBody_content (fun _ h => by cases h)

/-- a post is not announced; in the closed room it is stored, and the frame is not -/
theorem paths_disagree :
    ¬ Agree demoRoom demoAli demoChat ((viaSocket demoChatEnv 0 demoFrame 1 100).run demoChat).2
        ((SendMessageView.post demoAli 1 demoBody 1 100).run demoChat).2 ∧
      ((viaSocket demoChatEnv 0 demoFrame 1 100).run demoClosed).2.messages = [] ∧
      ((SendMessageView.post demoAli 1 demoBody 1 100).run demoClosed).2.messages =
        [⟨1, 1, some 2, .text, "Salom", false, none, 100⟩] := by
  refine ⟨fun hagree => ?_, by decide +kernel, by decide +kernel⟩
  have hcannot := (agree_iff rfl rfl rfl rfl demoFrame_content demoBody_content fun _ h => by cases h).1 hagree
  exact hcannot (by decide +kernel)

end GigMarketplace
