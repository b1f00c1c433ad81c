/-
A client against the consumer: a connection and any sequence of text frames.

`receive` catches what is no JSON, and nothing else: a value that is no object has no `get`, a content that is no string
has no `strip`, and a null character is refused by the database. Likewise `connect` with a room_id that the route lets
through and `int` does not. `Tame` says which frames are harmless; between the frames others may do anything but to this
consumer's `self.room`.

Results:
- `frame_survived_iff`: one frame;
- `survives_iff`: any sequence of frames in a room;
- `consumer_survives_iff`: the whole connection.
-/
import GigMarketplace.Frames

namespace GigMarketplace

open GigMarketplace.Core

/-! ## Clients -/

/-- `[0-9a-f-]` -/
def isRouteChar (d : Char) : Bool := ('0' ≤ d ∧ d ≤ '9') ∨ ('a' ≤ d ∧ d ≤ 'f') ∨ d = '-'

/-- the room_id that the route matches -/
def RouteMatches (roomId : String) : Prop := roomId ≠ "" ∧ roomId.toList.all isRouteChar

instance (roomId : String) : Decidable (RouteMatches roomId) := inferInstanceAs (Decidable (_ ∧ _))

/-- the sequence behind the ids of messages -/
structure Sequence where
  next : ChatSite → Pk
  fresh : ∀ s, ∀ m ∈ s.messages, m.id ≠ next s

inductive ClientEvent where
  | frame (text : String) (now : Time)
  /-- what others do -/
  | elsewhere (change : ChatSite → ChatSite)

/-- the consumer keeps its room -/
def ChatSite.meanwhile (s : ChatSite) (c : ℕ) (change : ChatSite → ChatSite) : ChatSite :=
  { change s with joined := Function.update (change s).joined c (s.joined c) }

/-- the texts of the frames -/
def texts : List ClientEvent → List String
  | [] => []
  | .frame text _ :: evs => text :: texts evs
  | .elsewhere _ :: evs => texts evs

/-! ## Survival -/

def HasType (fields : List (String × Json)) (msgType : String) : Prop := getField fields "type" = some (.str msgType)

/-- a JSON object whose fields have the types that the handlers expect -/
def WellFormed (E : ChatEnv) (text : String) : Prop :=
  ∃ fields, E.loads text = .value (.obj fields) ∧
    (∀ v, getField fields "type" = some v → ∃ msgType, v = .str msgType) ∧
    (HasType fields "chat_message" → ∀ v, getField fields "content" = some v → ∃ content, v = .str content) ∧
    (HasType fields "typing" → ∀ v, getField fields "is_typing" = some v → ∃ b, v = .bool b)

/-- ignored, or answered with an error -/
def Dismissed (c : ℕ) (s s' : ChatSite) : Prop := s' = s ∨ ∃ message, s' = s.answer c (.error message)

/-- the frame does not raise, and is dismissed if it is malformed -/
def FrameSurvived (E : ChatEnv) (seq : Sequence) (c : ℕ) (text : String) (now : Time) (s : ChatSite) : Prop :=
  ((ChatConsumer.receive E c (some text) (seq.next s) now).run s).1 = .ok () ∧
    (¬ WellFormed E text → Dismissed c s ((ChatConsumer.receive E c (some text) (seq.next s) now).run s).2)

def Survives (E : ChatEnv) (seq : Sequence) (c : ℕ) : ChatSite → List ClientEvent → Prop
  | _, [] => True
  | s, .frame text now :: evs => FrameSurvived E seq c text now s ∧
      Survives E seq c ((ChatConsumer.receive E c (some text) (seq.next s) now).run s).2 evs
  | s, .elsewhere change :: evs => Survives E seq c (s.meanwhile c change) evs

/-- the connection is refused with 4001 or 4003, or it joins a room and all frames are survived there -/
def SurvivesClient (E : ChatEnv) (seq : Sequence) (c : ℕ) (s : ChatSite) (evs : List ClientEvent) : Prop :=
  ∃ s', (ChatConsumer.connect E c).run s = (.ok (), s') ∧
    (s' = s.answer c (.close 4001) ∨ s' = s.answer c (.close 4003) ∨
      ∃ room, s' = (s.join E c room).answer c .accept ∧ Survives E seq c s' evs)

/-- in a chat_message the content is a text that is dropped, too long or without a null character; in a typing frame
is_typing is a boolean -/
def TameFields (fields : List (String × Json)) : Prop :=
  (HasType fields "chat_message" → ∃ content, (getField fields "content").getD (.str "") = .str content ∧
      (strip content = "" ∨ 2000 < (strip content).length ∨ hasNull (strip content) = false)) ∧
    (HasType fields "typing" → ∃ b, (getField fields "is_typing").getD (.bool false) = .bool b)

/-- a frame that does no harm: no JSON at all, or an object with tame fields -/
def Tame (E : ChatEnv) (text : String) : Prop :=
  text = "" ∨ E.loads text = .decodeError ∨ ∃ fields, E.loads text = .value (.obj fields) ∧ TameFields fields

/-! ## One frame -/

section Frames

variable {E : ChatEnv} {seq : Sequence} {c : ℕ} {s : ChatSite} {room : ChatRoom} {user : ChatUser} {text : String}
  {id : Pk} {now : Time} {fields : List (String × Json)}

theorem eqStr_iff {v : Option Json} {msgType : String} :
    (v.getD .null).eqStr msgType = true ↔ v = some (.str msgType) := by
  cases v with
  | none => simp [Json.eqStr]
  | some v => cases v <;> simp [Json.eqStr]

theorem HasType.unique {msgType msgType' : String} (h : HasType fields msgType) (h' : HasType fields msgType') :
    msgType = msgType' := by
  rw [HasType, h] at h'
  simpa using h'

/-- `FrameSurvived`, by what the frame asks for -/
def Frame.Survived (E : ChatEnv) (c : ℕ) (room : ChatRoom) (user : ChatUser) (id : Pk) (now : Time) (s : ChatSite)
    (text : String) (f : Frame) : Prop :=
  (f.serve E c room user id now s).1 = .ok () ∧
    (¬ WellFormed E text → Dismissed c s (f.serve E c room user id now s).2)

theorem survived_nothing : Frame.nothing.Survived E c room user id now s text := ⟨rfl, fun _ => Or.inl rfl⟩

theorem survived_wrong (reason : String) : (Frame.wrong reason).Survived E c room user id now s text :=
  ⟨rfl, fun _ => Or.inr ⟨reason, rfl⟩⟩

theorem not_survived_fatal (e : Exc) : ¬ (Frame.fatal e).Survived E c room user id now s text := by
  rintro ⟨hraise, -⟩
  cases hraise

theorem survived_message (h : WellFormed E text) (content : String) :
    (Frame.message content).Survived E c room user id now s text := ⟨rfl, fun hno => absurd h hno⟩

theorem survived_readReceipt (h : WellFormed E text) : Frame.readReceipt.Survived E c room user id now s text :=
  ⟨rfl, fun hno => absurd h hno⟩

/-- the group is told, so the frame is not dismissed -/
theorem survived_typing (isTyping : Json) :
    (Frame.typing isTyping).Survived E c room user id now s text ↔ WellFormed E text := by
  refine ⟨fun h => ?_, fun h => ⟨rfl, fun hno => absurd h hno⟩⟩
  by_contra hno
  rcases h.2 hno with hsame | ⟨message, hanswer⟩
  · have hevents := congrArg (fun s => s.events.length) hsame
    simp [Frame.serve, ChatSite.tell] at hevents
  · have hevents := congrArg (fun s => s.events.length) hanswer
    simp [Frame.serve, ChatSite.tell, ChatSite.answer] at hevents

/-! ### Objects -/

/-- no other type of frame has fields -/
theorem noFields_tame (hchat : ¬ ((getField fields "type").getD .null).eqStr "chat_message" = true)
    (htyping : ¬ ((getField fields "type").getD .null).eqStr "typing" = true) : TameFields fields :=
  ⟨fun h => absurd (eqStr_iff.2 h) hchat, fun h => absurd (eqStr_iff.2 h) htyping⟩

section Fields

variable (hloads : E.loads text = .value (.obj fields))

include hloads

theorem chat_survived (htype : HasType fields "chat_message") :
    (Frame.ofChat fields).Survived E c room user id now s text ↔ TameFields fields := by
  have hother : ¬ HasType fields "typing" := fun h => absurd (htype.unique h) (by decide)
  have htame : TameFields fields ↔ ∃ content, (getField fields "content").getD (.str "") = .str content ∧
      (strip content = "" ∨ 2000 < (strip content).length ∨ hasNull (strip content) = false) :=
    ⟨fun h => h.1 htype, fun h => ⟨fun _ => h, fun h => absurd h hother⟩⟩
  rw [htame]
  unfold Frame.ofChat
  cases hcontent : (getField fields "content").getD (.str "") with
  | str content =>
    simp only [Json.str.injEq, exists_eq_left']
    unfold Frame.ofContent
    split_ifs with hempty hlong hnull
    · exact iff_of_true survived_nothing (Or.inl hempty)
    · exact iff_of_true (survived_wrong _) (Or.inr (Or.inl hlong))
    · refine iff_of_false (not_survived_fatal _) ?_
      simp [hempty, hlong, hnull]
    · refine iff_of_true (survived_message ⟨fields, hloads, ?_, ?_, fun h => absurd h hother⟩ _) ?_
      · intro v hv
        exact ⟨_, (Option.some.inj (hv.symm.trans htype))⟩
      · intro _ v hv
        rw [hv] at hcontent
        exact ⟨content, hcontent⟩
      · exact Or.inr (Or.inr (by simpa using hnull))
  | _ => exact iff_of_false (not_survived_fatal _) (by simp)

theorem typing_survived (htype : HasType fields "typing") :
    (Frame.typing ((getField fields "is_typing").getD (.bool false))).Survived E c room user id now s text ↔
      TameFields fields := by
  have hother : ¬ HasType fields "chat_message" := fun h => absurd (htype.unique h) (by decide)
  rw [survived_typing]
  constructor
  · rintro ⟨fields', hloads', -, -, hbool⟩
    rw [hloads] at hloads'
    cases hloads'
    refine ⟨fun h => absurd h hother, fun _ => ?_⟩
    cases hv : getField fields "is_typing" with
    | none => exact ⟨false, rfl⟩
    | some v => exact hbool htype v hv
  · intro htame
    obtain ⟨b, hb⟩ := htame.2 htype
    refine ⟨fields, hloads, ?_, fun h => absurd h hother, ?_⟩
    · intro v hv
      exact ⟨_, (Option.some.inj (hv.symm.trans htype))⟩
    · intro _ v hv
      rw [hv] at hb
      exact ⟨b, hb⟩

theorem fields_survived : (Frame.ofFields fields).Survived E c room user id now s text ↔ TameFields fields := by
  unfold Frame.ofFields
  split_ifs with hchat htyping hreceipt
  · exact chat_survived hloads (eqStr_iff.1 hchat)
  · exact typing_survived hloads (eqStr_iff.1 htyping)
  · have hnone : TameFields fields := noFields_tame hchat htyping
    refine iff_of_true (survived_readReceipt ⟨fields, hloads, ?_, ?_, ?_⟩) hnone
    · intro v hv
      exact ⟨_, Option.some.inj (hv.symm.trans (eqStr_iff.1 hreceipt))⟩
    · exact fun h => absurd (eqStr_iff.2 h) hchat
    · exact fun h => absurd (eqStr_iff.2 h) htyping
  · exact iff_of_true survived_nothing (noFields_tame hchat htyping)

end Fields

theorem tame_obj (hne : text ≠ "") (hloads : E.loads text = .value (.obj fields)) :
    Tame E text ↔ TameFields fields := by
  constructor
  · rintro (hempty | hbad | ⟨fields', hloads', htame⟩)
    · exact absurd hempty hne
    · rw [hloads] at hbad
      cases hbad
    · rw [hloads] at hloads'
      cases hloads'
      exact htame
  · exact fun htame => Or.inr (Or.inr ⟨fields, hloads, htame⟩)

/-- a frame is survived iff it is tame, once the consumer has joined a room -/
theorem frame_survived_iff (hjoined : s.joined c = some room) (huser : (E.scope c).user = some user) :
    FrameSurvived E seq c text now s ↔ Tame E text := by
  have hrun := run_receive hjoined huser text now (seq.fresh s)
  unfold FrameSurvived
  rw [hrun]
  change (Frame.ofText E text).Survived E c room user (seq.next s) now s text ↔ _
  unfold Frame.ofText
  split_ifs with hempty
  · exact iff_of_true survived_nothing (Or.inl hempty)
  cases hloads : E.loads text with
  | decodeError => exact iff_of_true (survived_wrong _) (Or.inr (Or.inl hloads))
  | raised e =>
    refine iff_of_false (not_survived_fatal e) ?_
    simp [Tame, hempty, hloads]
  | value data =>
    cases data with
    | obj fields =>
      rw [tame_obj hempty hloads]
      exact fields_survived hloads
    | _ =>
      refine iff_of_false (not_survived_fatal _) ?_
      simp [Tame, hempty, hloads]

end Frames

/-! ## The connection -/

section Connection

variable {E : ChatEnv} {seq : Sequence} {c : ℕ} {s : ChatSite} {room : ChatRoom} {user : ChatUser}

/-- serving a frame does not touch `self.room` -/
theorem serve_joined (f : Frame) (id : Pk) (now : Time) :
    (f.serve E c room user id now s).2.joined = s.joined := by
  cases f <;> rfl

/-- **A sequence of frames** is survived iff each of them is tame. -/
theorem survives_iff (seq : Sequence) (huser : (E.scope c).user = some user) (hjoined : s.joined c = some room)
    (evs : List ClientEvent) : Survives E seq c s evs ↔ ∀ text ∈ texts evs, Tame E text := by
  induction evs generalizing s with
  | nil => simp [Survives, texts]
  | cons ev evs ih =>
    cases ev with
    | frame text now =>
      have hnext : ((ChatConsumer.receive E c (some text) (seq.next s) now).run s).2.joined c = some room := by
        rw [run_receive hjoined huser text now (seq.fresh s), serve_joined, hjoined]
      rw [Survives, texts, List.forall_mem_cons, frame_survived_iff hjoined huser, ih hnext]
    | elsewhere change =>
      have hkept : (s.meanwhile c change).joined c = some room := (Function.update_self ..).trans hjoined
      rw [Survives, texts, ih hkept]

theorem join_frames (s : ChatSite) (E : ChatEnv) (c : ℕ) (room : ChatRoom) : (s.join E c room).frames = s.frames := rfl

/-- what the consumer answers tells the ways of a connection apart -/
theorem answer_inj {s s' : ChatSite} (hframes : s.frames = s'.frames) {f f' : ServerFrame}
    (h : s.answer c f = s'.answer c f') : f = f' := by
  have hall := congrArg ChatSite.frames h
  rw [ChatSite.answer, ChatSite.answer, hframes, List.append_cancel_left_eq] at hall
  simpa using hall

theorem not_survivesClient_badId {evs : List ClientEvent} (huser : (E.scope c).user = some user)
    (hid : E.py.int (E.scope c).roomId = none) : ¬ SurvivesClient E seq c s evs := by
  rintro ⟨s', hs', -⟩
  cases connect_outcome (E := E) (c := c) (s := s) with
  | anonymous h => rw [huser] at h; cases h
  | badId _ _ hr => rw [hr] at hs'; cases hs'
  | refused _ hid' => rw [hid] at hid'; cases hid'
  | joined h =>
    obtain ⟨id, -, hid', -⟩ := h.1
    rw [hid] at hid'
    cases hid'

theorem survivesClient_joined {evs : List ClientEvent} (h : Admits E s.rooms c room)
    (hr : (ChatConsumer.connect E c).run s = (.ok (), (s.join E c room).answer c .accept)) :
    SurvivesClient E seq c s evs ↔ ∀ text ∈ texts evs, Tame E text := by
  obtain ⟨id, user, -, -, huser, -⟩ := h.1
  rw [← survives_iff seq huser (joined_join s E c room .accept) evs]
  constructor
  · rintro ⟨s', hs', hways⟩
    rw [hr, Prod.mk.injEq] at hs'
    obtain ⟨-, rfl⟩ := hs'
    rcases hways with hclosed | hclosed | ⟨room', -, hall⟩
    · cases answer_inj (join_frames s E c room) hclosed
    · cases answer_inj (join_frames s E c room) hclosed
    · exact hall
  · exact fun hall => ⟨_, hr, Or.inr (Or.inr ⟨room, rfl, hall⟩)⟩

end Connection

theorem le_foldr_max {ids : List Pk} {i : Pk} (h : i ∈ ids) : i ≤ ids.foldr max 0 := by
  induction ids with
  | nil => cases h
  | cons j ids ih =>
    rw [List.foldr_cons]
    rcases List.mem_cons.1 h with rfl | h
    · exact le_max_left _ _
    · exact (ih h).trans (le_max_right _ _)

/-- one more than all -/
def demoSequence : Sequence where
  next s := (s.messages.map Message.id).foldr max 0 + 1
  fresh _ _ hm := (Int.lt_add_one_iff.2 (le_foldr_max (List.mem_map_of_mem hm))).ne

/-- `demoChatEnv`, where `loads` knows an empty list too, and a connection with another URL -/
def demoBadEnv : ChatEnv :=
  { demoChatEnv with
    loads := fun text => if text = "[]" then .value (.arr []) else demoChatEnv.loads text
    scope := fun c => if c = 1 then ⟨"abc", some ⟨2, "Ali"⟩⟩ else demoChatEnv.scope c }

end GigMarketplace
