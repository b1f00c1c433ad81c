/-
Read receipts and the unread counts of the two parties of a room.

A message has one flag for both. That is enough for a message by one of them, which only the other one has to read; a
message by neither, as the system's, both have to read, and the first receipt reads it for both.

Results:
- `receive_readReceipt`: the frame, and what it leaves;
- `unread_other_iff`: when the other party's count stays;
- `reads_alone_iff`: both counts after a receipt.
-/
import GigMarketplace.Frames

namespace GigMarketplace

open GigMarketplace.Core

/-! ## Counts -/

/-- `unread_count` for `user`; the query keeps the messages without a sender -/
def ChatRoomSerializer.getUnreadCount (room : ChatRoom) (user : Pk) (s : ChatSite) : ℕ :=
  s.messages.countP fun m => m.room = room.id ∧ m.isRead = false ∧ m.sender ≠ some user

/-- a read_receipt frame -/
structure ReceiptFrame (E : ChatEnv) (text : String) : Prop where
  text_ne : text ≠ ""
  loads : ∃ fields, E.loads text = .value (.obj fields) ∧ getField fields "type" = some (.str "read_receipt")

/-- the reader has read everything, and the other one as much as before -/
def ReadsAlone (room : ChatRoom) (reader other : Pk) (s s' : ChatSite) : Prop :=
  ChatRoomSerializer.getUnreadCount room reader s' = 0 ∧
    ChatRoomSerializer.getUnreadCount room other s' = ChatRoomSerializer.getUnreadCount room other s

/-- of two conditions, the stronger one holds as often iff it holds wherever the weaker one does -/
theorem countP_eq_iff {A : Type} {p q : A → Bool} {l : List A} (h : ∀ x ∈ l, p x = true → q x = true) :
    l.countP p = l.countP q ↔ ∀ x ∈ l, q x = true → p x = true := by
  induction l with
  | nil => simp
  | cons a l ih =>
    rw [List.forall_mem_cons] at h ⊢
    obtain ⟨ha, hl⟩ := h
    have hle : l.countP p ≤ l.countP q := List.countP_mono_left hl
    rw [← ih hl, List.countP_cons, List.countP_cons]
    by_cases hq : q a = true
    · by_cases hp : p a = true
      · simp [hp, hq]
      · simp only [hp, hq, if_true, Bool.false_eq_true, if_false, forall_const, false_and, iff_false]
        omega
    · have hp : ¬ p a = true := fun hp => hq (ha hp)
      simp [hp, hq]

/-! ## One receipt -/

section Receipt

variable {E : ChatEnv} {c : ℕ} {s : ChatSite} {room : ChatRoom} {user : ChatUser} {text : String} {id : Pk} {now : Time}

theorem receive_readReceipt (hframe : ReceiptFrame E text) :
    ChatConsumer.receive E c (some text) id now = ChatConsumer.handleReadReceipt E c now := by
  obtain ⟨fields, hloads, htype⟩ := hframe.loads
  rw [receive_obj hframe.text_ne hloads, htype, if_neg (by decide), if_neg (by decide), if_pos (by decide)]

/-- nothing is left for the reader -/
theorem unread_reader : ChatRoomSerializer.getUnreadCount room user.id (s.markRead room user now) = 0 := by
  unfold ChatRoomSerializer.getUnreadCount ChatSite.markRead
  rw [List.countP_map, List.countP_eq_zero]
  intro m _
  by_cases hmark : m.room = room.id ∧ m.isRead = false ∧ m.sender ≠ some user.id
  · simp [hmark]
  · simp [hmark]

/-- for another one it is as before iff every unread message is by one of the two -/
theorem unread_other_iff {other : Pk} :
    ChatRoomSerializer.getUnreadCount room other (s.markRead room user now) =
        ChatRoomSerializer.getUnreadCount room other s ↔
      ∀ m ∈ s.messages, m.room = room.id → m.isRead = false → m.sender = some user.id ∨ m.sender = some other := by
  unfold ChatRoomSerializer.getUnreadCount ChatSite.markRead
  rw [List.countP_map, countP_eq_iff]
  · refine forall₂_congr fun m _ => ?_
    by_cases hmark : m.room = room.id ∧ m.isRead = false ∧ m.sender ≠ some user.id
    · simp [hmark]
    · -- the receipt leaves the message, so the reader has sent it
      have hself : m.room = room.id → m.isRead = false → m.sender = some user.id := by simpa using hmark
      simp only [Function.comp_apply, if_neg hmark, imp_self, true_iff]
      exact fun hroom hread => Or.inl (hself hroom hread)
  · intro m _
    by_cases hmark : m.room = room.id ∧ m.isRead = false ∧ m.sender ≠ some user.id
    · simp [hmark]
    · simp only [Function.comp_apply, if_neg hmark, imp_self]

end Receipt

/-- **Reading for oneself.** After a receipt the reader's count is zero, and the other party's is as it was iff every
unread message of the room is by one of the two. -/
theorem reads_alone_iff {E : ChatEnv} {c : ℕ} {s : ChatSite} {room : ChatRoom} {user : ChatUser}
    (hjoined : s.joined c = some room) (huser : (E.scope c).user = some user) {text : String}
    (hframe : ReceiptFrame E text) (other id : Pk) (now : Time) :
    ReadsAlone room user.id other s ((ChatConsumer.receive E c (some text) id now).run s).2 ↔
      ∀ m ∈ s.messages, m.room = room.id → m.isRead = false → m.sender = some user.id ∨ m.sender = some other := by
  rw [receive_readReceipt hframe, @run_handleReadReceipt E c s room user id now hjoined huser]
  constructor
  · exact fun h => unread_other_iff.1 h.2
  · exact fun h => ⟨unread_reader, unread_other_iff.2 h⟩

/-- the room of the small market's job with the message that it opens with, which nobody has read -/
def demoOpened : ChatSite :=
  { demoChat with
    messages := [⟨1, 1, none, .system, "Job \"Fence\" accepted. You can now chat with each other.", false, none, 0⟩] }

def demoReceipt : String := "\x7b\"type\": \"read_receipt\"\x7d"

/-- `demoChatEnv`, where `loads` knows the receipt -/
def demoReceiptEnv : ChatEnv :=
  { demoChatEnv with
    loads := fun text => if text = demoReceipt then .value (.obj [("type", .str "read_receipt")]) else .decodeError }

theorem demoReceipt_frame : ReceiptFrame demoReceiptEnv demoReceipt :=
  ⟨by decide, [("type", .str "read_receipt")], by simp [demoReceiptEnv], rfl⟩

/-- the worker has joined the room -/
def demoReader : ChatSite := demoOpened.join demoReceiptEnv 0 ⟨1, 1, 1, 2, true⟩

theorem reads_alone_iff_demo :
    ReadsAlone ⟨1, 1, 1, 2, true⟩ 2 1 demoReader
        ((ChatConsumer.receive demoReceiptEnv 0 (some demoReceipt) 2 100).run demoReader).2 ↔
      ∀ m ∈ demoReader.messages, m.room = 1 → m.isRead = false → m.sender = some 2 ∨ m.sender = some 1 :=
  reads_alone_iff rfl (show (demoReceiptEnv.scope 0).user = some ⟨2, "Ali"⟩ from rfl) demoReceipt_frame 1 2 100

/-- the worker's receipt reads the message for the employer too -/
theorem receipt_reads_for_both :
    (ChatConsumer.connect demoReceiptEnv 0).run demoOpened = (.ok (), demoReader.answer 0 .accept) ∧
      ChatRoomSerializer.getUnreadCount ⟨1, 1, 1, 2, true⟩ 1 demoReader = 1 ∧
      ChatRoomSerializer.getUnreadCount ⟨1, 1, 1, 2, true⟩ 1
        ((ChatConsumer.receive demoReceiptEnv 0 (some demoReceipt) 2 100).run demoReader).2 = 0 := by
  refine ⟨rfl, by decide, by decide +kernel⟩

end GigMarketplace
