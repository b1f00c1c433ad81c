/-
ChatRoomDetailView of `apps/chat/views.py`: the messages of a room, newest first, page by page, while the chat goes on.

The calls of `Chat.lean` and the requests for pages run statement by statement in any interleaving. A message is never
changed once it is written but for being read, and it is read once (`Lasting`), so to a client that asks for page after
page the messages only become more.

Results:
- `messages_immutable`: in any run every message stays in its place, with the columns it was written with; once it has
  been read, its row does not change any more;
- `history_shown_or_cut`: where no two messages of the room have one created_at, a client that asks for every page is
  shown every message that the room had when it began, but for those that the last page's LIMIT has cut off: where
  messages come in between the last COUNT and the last SELECT, as many of the oldest ones.
-/
import Mathlib.Tactic.IntervalCases
import GigMarketplace.ChatEvents
import GigMarketplace.PagedReads

namespace GigMarketplace

open GigMarketplace.Core StandardResultsPagination

/-! ## The view -/

/-- `Message.objects.filter(room=room).order_by("-created_at")` -/
def roomMessages (roomId : Pk) (s : ChatSite) : List Message :=
  sortOn Message.createdAt true (s.messages.filter fun m => m.room = roomId)

def ChatRoomDetailView.get (P : PageSettings) (user roomId : Pk) (q : PageQuery) : ChatCall (Page Message) := do
  let room ← SendMessageView.getRoomOr404 roomId user
  paginateQueryset P q (roomMessages room.id) .exc

inductive ChatRequest where
  | talk (o : ChatOp)
  /-- GET /chat/{room_id}/?page= -/
  | history (user roomId : Pk) (q : PageQuery)

def ChatRequest.code (E : ChatEnv) (P : PageSettings) : ChatRequest → ChatCall (Option (Page Message))
  | .talk o => do
    o.code E
    return none
  | .history user roomId q => do
    let page ← ChatRoomDetailView.get P user roomId q
    return some page

abbrev ChatRequests := Pool ChatSite Failure (Option (Page Message)) ChatRequest

def chatRequests (E : ChatEnv) (P : PageSettings) (s : ChatSite) (evs : List (PoolEvent ChatRequest Empty)) :
    ChatRequests :=
  (Pool.init s).run (ChatRequest.code E P) (fun n _ => n.elim) evs

/-! ## Messages last -/

/-- a row and the same row later -/
def Message.Later (m m' : Message) : Prop :=
  { m' with isRead := m.isRead, readAt := m.readAt } = m ∧ (m.isRead = true → m' = m)

/-- every message stays in its place; new ones come after them -/
def Lasting (s s' : ChatSite) : Prop :=
  ∀ (i : ℕ) (m : Message), s.messages[i]? = some m → ∃ m', s'.messages[i]? = some m' ∧ m.Later m'

section Lasting

variable {E : ChatEnv} {c : ℕ} {s s' s₁ s₂ s₃ : ChatSite} {m m₁ m₂ m₃ : Message}

theorem Message.Later.refl (m : Message) : m.Later m := ⟨rfl, fun _ => rfl⟩

theorem Message.Later.trans (h : m₁.Later m₂) (h' : m₂.Later m₃) : m₁.Later m₃ := by
  refine ⟨?_, fun hread => ?_⟩
  · have hfirst := h.1
    rw [← h'.1] at hfirst
    exact hfirst
  · have hsame := h.2 hread
    rw [hsame] at h'
    exact h'.2 hread

theorem Lasting.refl (s : ChatSite) : Lasting s s := fun _ m hm => ⟨m, hm, Message.Later.refl m⟩

theorem Lasting.trans (h : Lasting s₁ s₂) (h' : Lasting s₂ s₃) : Lasting s₁ s₃ := by
  intro i m hm
  obtain ⟨m₂, hm₂, hlater⟩ := h i m hm
  obtain ⟨m₃, hm₃, hlater'⟩ := h' i m₂ hm₂
  exact ⟨m₃, hm₃, hlater.trans hlater'⟩

/-- what a message was written with -/
def Message.written (m : Message) : Pk × Pk × Time := (m.id, m.room, m.createdAt)

theorem Message.Later.written (h : m₁.Later m₂) : m₂.written = m₁.written := by
  rw [← h.1]
  rfl

theorem Lasting.written (h : Lasting s s') : s.messages.map Message.written <+: s'.messages.map Message.written := by
  rw [List.prefix_iff_getElem?]
  intro i hi
  rw [List.length_map] at hi
  obtain ⟨m', hm', hlater⟩ := h i _ (List.getElem?_eq_getElem hi)
  rw [List.getElem?_map, hm', Option.map_some, hlater.written, List.getElem_map]

/-! ### Statements -/

/-- a statement that leaves the messages -/
theorem lasting_act {A : Type} {f : ChatSite → Except Failure (A × ChatSite)}
    (h : ∀ s x, f s = .ok x → x.2.messages = s.messages) : (Code.act f : ChatCall A).Each Lasting := by
  apply Code.each_act Lasting.refl
  intro s x hx i m hm
  rw [h s x hx]
  exact ⟨m, hm, Message.Later.refl m⟩

theorem lasting_create (m : Message) : (Message.create m).Each Lasting := by
  apply Code.each_act Lasting.refl
  intro s x hx i m' hm'
  split_ifs at hx
  cases hx
  refine ⟨m', ?_, Message.Later.refl m'⟩
  obtain ⟨hi, -⟩ := List.getElem?_eq_some_iff.1 hm'
  rw [List.getElem?_append_left hi]
  exact hm'

theorem lasting_send (frame : ServerFrame) : (ChatConsumer.send c frame).Each Lasting := by
  apply lasting_act
  intro s x h
  cases h
  rfl

theorem lasting_groupSend (event : ChatEvent) : (ChatConsumer.groupSend E c event).Each Lasting := by
  apply lasting_act
  intro s x h
  cases h
  rfl

/-- the UPDATE leaves what has been read -/
theorem lasting_markMessagesRead (now : Time) : (ChatConsumer.markMessagesRead E c now).Each Lasting := by
  refine Code.each_bind (Code.each_query Lasting.refl _) fun room => ?_
  refine Code.each_bind (Code.each_ofExcept _) fun user => ?_
  apply Code.each_act Lasting.refl
  intro s x hx i m hm
  cases hx
  refine ⟨_, by rw [List.getElem?_map, hm]; rfl, ?_⟩
  dsimp only
  split_ifs with hunread
  · refine ⟨rfl, fun hread => ?_⟩
    rw [hunread.2.1] at hread
    cases hread
  · exact Message.Later.refl m

/-! ### Requests -/

theorem lasting_handleContent (content : String) (id : Pk) (now : Time) :
    (ChatConsumer.handleContent E c content id now).Each Lasting := by
  unfold ChatConsumer.handleContent
  split_ifs
  · trivial
  · exact lasting_send _
  · have hsave : (ChatConsumer.saveMessage E c content id now).Each Lasting := by
      refine Code.each_bind (Code.each_query Lasting.refl _) fun room => ?_
      exact Code.each_bind (Code.each_ofExcept _) fun user => lasting_create _
    refine Code.each_bind hsave fun message => ?_
    exact Code.each_bind (Code.each_ofExcept _) fun user => lasting_groupSend _

theorem lasting_handleChatMessage (data : Json) (id : Pk) (now : Time) :
    (ChatConsumer.handleChatMessage E c data id now).Each Lasting := by
  refine Code.each_bind (Code.each_ofExcept _) fun content => ?_
  split
  · exact lasting_handleContent _ id now
  · trivial

theorem lasting_handleTyping (data : Json) : (ChatConsumer.handleTyping E c data).Each Lasting := by
  refine Code.each_bind (Code.each_ofExcept _) fun user => ?_
  exact Code.each_bind (Code.each_ofExcept _) fun isTyping => lasting_groupSend _

theorem lasting_handleReadReceipt (now : Time) : (ChatConsumer.handleReadReceipt E c now).Each Lasting := by
  refine Code.each_bind (lasting_markMessagesRead now) fun _ => ?_
  exact Code.each_bind (Code.each_ofExcept _) fun user => lasting_groupSend _

theorem lasting_receive (textData : Option String) (id : Pk) (now : Time) :
    (ChatConsumer.receive E c textData id now).Each Lasting := by
  unfold ChatConsumer.receive
  split
  · trivial
  · split_ifs
    · trivial
    · split
      · exact lasting_send _
      · trivial
      · refine Code.each_bind (Code.each_ofExcept _) fun msgType => ?_
        split_ifs
        · exact lasting_handleChatMessage _ id now
        · exact lasting_handleTyping _
        · exact lasting_handleReadReceipt now
        · trivial

theorem lasting_connect : (ChatConsumer.connect E c).Each Lasting := by
  unfold ChatConsumer.connect
  split
  · exact lasting_send _
  · refine Code.each_bind (Code.each_query Lasting.refl _) fun found => ?_
    split
    · exact lasting_send _
    · split_ifs
      · have hjoin : ∀ g : ChatSite → ChatSite, (∀ s, (g s).messages = s.messages) →
            (Code.act fun s => .ok ((), g s) : ChatCall Unit).Each Lasting := by
          intro g hg
          apply lasting_act
          intro s x h
          cases h
          exact hg s
        refine Code.each_bind (hjoin _ fun s => rfl) fun _ => ?_
        exact Code.each_bind (hjoin _ fun s => rfl) fun _ => lasting_send _
      · exact lasting_send _

theorem lasting_getRoomOr404 (roomId user : Pk) : (SendMessageView.getRoomOr404 roomId user).Each Lasting := by
  refine Code.each_bind (Code.each_query Lasting.refl _) fun room => ?_
  exact Code.each_bind (Code.each_raiseIf _ _) fun _ => trivial

theorem lasting_chatOp (o : ChatOp) : (o.code E).Each Lasting := by
  cases o with
  | connect c => exact lasting_connect
  | disconnect c =>
    apply lasting_act
    intro s x h
    cases h
    rfl
  | receive c textData id now => exact lasting_receive textData id now
  | sendMessage user roomId data id now =>
    refine Code.each_bind (lasting_getRoomOr404 roomId user.id) fun room => ?_
    refine Code.each_bind (Code.each_ofExcept _) fun content => ?_
    exact Code.each_bind (lasting_create _) fun _ => trivial

theorem lasting_request {P : PageSettings} (o : ChatRequest) : (o.code E P).Each Lasting := by
  cases o with
  | talk o => exact Code.each_bind (lasting_chatOp o) fun _ => trivial
  | history user roomId q =>
    refine Code.each_bind (Code.each_bind (lasting_getRoomOr404 roomId user) fun room => ?_) fun _ => trivial
    exact each_paginateQueryset Lasting.refl

end Lasting

/-! ## Page after page -/

section History

variable {E : ChatEnv} {P : PageSettings} {s s' final : ChatSite} {roomId user : Pk}

/-- what the rows of a room were written with, newest first -/
theorem written_roomMessages (roomId : Pk) (s : ChatSite) :
    (roomMessages roomId s).map Message.written =
      sortOn (fun w => w.2.2) true ((s.messages.map Message.written).filter fun w => w.2.1 = roomId) := by
  rw [List.filter_map]
  exact @map_sortOn _ _ _ (fun w : Pk × Pk × Time => w.2.2) true _ Message.written _

/-- the room's messages have been written at different times -/
def DistinctTimes (roomId : Pk) (s : ChatSite) : Prop :=
  ((s.messages.filter fun m => m.room = roomId).map Message.createdAt).Nodup

theorem DistinctTimes.before (h : DistinctTimes roomId s') (hlasting : Lasting s s') : DistinctTimes roomId s := by
  have htimes : ∀ s : ChatSite, (s.messages.filter fun m => m.room = roomId).map Message.createdAt =
      ((s.messages.map Message.written).filter fun w => w.2.1 = roomId).map fun w => w.2.2 := by
    intro s
    rw [List.filter_map, List.map_map]
    rfl
  unfold DistinctTimes at h ⊢
  rw [htimes] at h ⊢
  exact h.sublist ((hlasting.written.sublist.filter _).map _)

/-- to a reader the messages of a room only become more -/
theorem roomMessages_grow (hlasting : Lasting s s') (htimes : DistinctTimes roomId s') :
    ((roomMessages roomId s).map Message.id).Sublist ((roomMessages roomId s').map Message.id) := by
  have hid : ∀ s : ChatSite, (roomMessages roomId s).map Message.id =
      ((roomMessages roomId s).map Message.written).map Prod.fst := by
    intro s
    rw [List.map_map]
    rfl
  rw [hid, hid, written_roomMessages, written_roomMessages]
  apply List.Sublist.map
  apply sortOn_sublist (hlasting.written.sublist.filter _).subperm
  unfold DistinctTimes at htimes
  rw [List.filter_map, List.map_map]
  exact htimes

/-- what a request for a page returns -/
theorem assures_history (q : PageQuery) :
    (ChatRequest.code E P (.history user roomId q)).Assures (fun _ => True) Lasting Lasting
      (fun found s' => ∀ page, found = some page → Paged P q (roomMessages roomId) Lasting s page s') s := by
  have hroom : (SendMessageView.getRoomOr404 roomId user).Assures (fun _ => True) Lasting Lasting
      (fun room s' => room.id = roomId ∧ Lasting s s') s := by
    refine Code.assures_bind (P := fun room s' => room.id = roomId ∧ Lasting s s') ?_ ?_
    · apply Code.assures_query Lasting.refl
      intro s' room hR _ hroom
      split at hroom
      · cases hroom
      · rename_i found hfind
        cases hroom
        exact ⟨Table.pk_of_find hfind, hR⟩
    · intro room s' h
      exact Code.assures_bind (P := fun _ s'' => s'' = s') (Code.assures_raiseIf fun _ => rfl) fun _ s'' he => by
        subst he
        exact h
  have hpage : (ChatRoomDetailView.get P user roomId q).Assures (fun _ => True) Lasting Lasting
      (fun page s' => Paged P q (roomMessages roomId) Lasting s page s') s := by
    refine Code.assures_bind hroom ?_
    rintro room s' ⟨hid, hR⟩
    rw [hid]
    exact assures_paginateQueryset Lasting.refl (fun _ h _ => hR.trans h) fun _ _ h _ => h
  refine Code.assures_bind hpage fun page s' h => ?_
  rintro found he
  cases he
  exact h

/-- what is promised of an answer -/
def ChatRequest.Answer (P : PageSettings) : ChatRequest → ChatSite → Option (Page Message) → ChatSite → Prop
  | .talk _, _, _, _ => True
  | .history _ roomId q, s, found, s' => ∀ page, found = some page → Paged P q (roomMessages roomId) Lasting s page s'

theorem assures_request (o : ChatRequest) :
    (o.code E P).Assures (fun _ => True) Lasting Lasting (o.Answer P s) s := by
  cases o with
  | talk o => exact Code.assures_each (fun _ _ _ _ => trivial) (lasting_request (.talk o))
  | history user roomId q => exact assures_history q

/-- the entries of a run, in their order and with their answers -/
theorem requests_trace (E : ChatEnv) (P : PageSettings) (s : ChatSite) (evs : List (PoolEvent ChatRequest Empty)) :
    OrderedTrace Lasting s (chatRequests E P s evs).mem (chatRequests E P s evs).trace ∧
      AssuredTrace (fun _ => True) (fun _ _ => Lasting) (fun o => o.Answer P) (chatRequests E P s evs).trace := by
  have hcode : ∀ (o : ChatRequest) s, True → True →
      (o.code E P).AssuresFrom (fun _ => True) Lasting Lasting (o.Answer P s) s := fun o s _ _ =>
    (assures_request o).start (Lasting.refl s) trivial
  constructor
  · exact pool_ordered Lasting.refl (fun _ _ _ => Lasting.trans) (fun _ _ _ _ hstep => hstep) hcode (fun n => n.elim)
      trivial (meets_starts_true _ evs)
  · exact (pool_assures Lasting.refl (fun _ _ _ => Lasting.trans) (fun _ _ _ _ hstep => hstep) hcode
      (fun n => n.elim) trivial (meets_starts_true _ evs)).2

end History

/-- **Messages are immutable.** In any interleaving of connections, frames, REST posts and reads, every message keeps
its place and the columns it was written with, from any moment of a run to its end; once it has been read, its row does
not change any more. -/
theorem messages_immutable (E : ChatEnv) (P : PageSettings) (s : ChatSite) (evs : List (PoolEvent ChatRequest Empty)) :
    Lasting s (chatRequests E P s evs).mem ∧
      ∀ e ∈ (chatRequests E P s evs).trace, Lasting e.after (chatRequests E P s evs).mem :=
  ⟨(requests_trace E P s evs).1.since, (requests_trace E P s evs).1.now⟩

/-- **The whole history, but for what LIMIT cuts off.** No two messages of the room have one created_at. Then a client
that asks for page after page until there is no next one is shown every message that the room had when it began, or the
message is one of the oldest that stand beyond the last COUNT when the last page is read; and it is shown as many rows
as that COUNT says. -/
theorem history_shown_or_cut (E : ChatEnv) (P : PageSettings) (s : ChatSite) (evs : List (PoolEvent ChatRequest Empty))
    (user roomId : Pk) (pageSize : Option ℤ) (htimes : DistinctTimes roomId (chatRequests E P s evs).mem) {last : ℕ}
    {entries : ℕ → Entry ChatSite Failure (Option (Page Message)) ChatRequest} {pages : ℕ → Page Message}
    (hcalls : PageCalls (chatRequests E P s evs).trace (fun n => .history user roomId ⟨n, pageSize⟩) some last entries
      pages) :
    (∀ m ∈ (entries 0).origin.messages, m.room = roomId →
      (∃ n ≤ last, ∃ m' ∈ (pages n).results, m'.id = m.id) ∨
        m.id ∈ ((roomMessages roomId (entries last).after).drop (pages last).count).map Message.id) ∧
      ((List.range (last + 1)).flatMap fun n => (pages n).results).length = (pages last).count := by
  obtain ⟨hordered, hassured⟩ := requests_trace E P s evs
  have hgrows : ∀ s₁ s₂, Lasting s₁ s₂ → Lasting s₂ (chatRequests E P s evs).mem →
      ((roomMessages roomId s₁).map Message.id).Sublist ((roomMessages roomId s₂).map Message.id) :=
    fun s₁ s₂ h h' => roomMessages_grow h (htimes.before h')
  have hreturned : ∀ e ∈ (chatRequests E P s evs).trace, ∀ n page, e.op = .history user roomId ⟨n, pageSize⟩ →
      e.result = some (.ok (some page)) →
      Paged P ⟨n, pageSize⟩ (roomMessages roomId) Lasting e.origin page e.after := by
    intro e he n page hop hresult
    have hanswer := (hassured e he).2.2 _ hresult
    rw [hop] at hanswer
    exact hanswer page rfl
  have hread := read_or_beyond hcalls hreturned hordered (fun _ _ _ => Lasting.trans) hgrows
  refine ⟨fun m hm hroom => ?_, hread.2⟩
  have hmem : m.id ∈ (roomMessages roomId (entries 0).origin).map Message.id :=
    List.mem_map_of_mem (mem_sortOn.2 (List.mem_filter.2 ⟨hm, decide_eq_true hroom⟩))
  rcases hread.1 m.id hmem with ⟨n, hn, hshown⟩ | hbeyond
  · left
    obtain ⟨m', hm', hid⟩ := List.mem_map.1 hshown
    exact ⟨n, hn, m', hm', hid⟩
  · right
    rwa [List.map_drop]

/-! ## A room of two messages -/

def demoWritten (id : Pk) (createdAt : Time) : Message := ⟨id, 1, some 1, .text, "Salom", false, none, createdAt⟩

def demoWrittenRoom : ChatSite := { demoChat with messages := [demoWritten 1 100, demoWritten 2 200] }

def demoPost : ChatRequest := .talk (.sendMessage ⟨1, "Olim"⟩ 1 (.obj [("content", .str "Salom")]) 3 300)

/-- the worker asks for pages of one message, and the employer writes between the first two requests -/
def demoReading : List (PoolEvent ChatRequest Empty) :=
  [.start 0 (.history 2 1 ⟨1, some 1⟩), .step 0, .step 0, .start 1 demoPost, .step 1,
    .start 0 (.history 2 1 ⟨2, some 1⟩), .step 0, .step 0, .start 0 (.history 2 1 ⟨3, some 1⟩), .step 0, .step 0]

theorem demoReading_length : (chatRequests demoChatEnv twentyAPage demoWrittenRoom demoReading).trace.length = 11 := by
  decide +kernel

/-- the entries with the answers -/
def demoAnswers (n : ℕ) : Entry ChatSite Failure (Option (Page Message)) ChatRequest :=
  (chatRequests demoChatEnv twentyAPage demoWrittenRoom demoReading).trace.get
    ⟨[2, 7, 10].getD n 10, by
      rw [demoReading_length]
      match n with
      | 0 => decide
      | 1 => decide
      | 2 => decide
      | _ + 3 => exact Nat.lt_succ_self 10⟩

def demoPages : ℕ → Page Message
  | 0 => ⟨2, 2, 1, some 2, none, [demoWritten 2 200]⟩
  | 1 => ⟨3, 3, 2, some 3, some 1, [demoWritten 2 200]⟩
  | _ => ⟨3, 3, 3, none, some 2, [demoWritten 1 100]⟩

theorem demoAnswers_calls : PageCalls (chatRequests demoChatEnv twentyAPage demoWrittenRoom demoReading).trace
    (fun n => .history 2 1 ⟨n, some 1⟩) some 2 demoAnswers demoPages := by
  refine ⟨fun n _ => List.get_mem _ _, ?_, ?_, ?_, ?_⟩
  · intro n hn
    interval_cases n <;> rfl
  · intro n hn
    interval_cases n <;> rfl
  · intro n hn
    interval_cases n <;> decide +kernel
  · intro n hn
    interval_cases n <;> decide

theorem history_shown_or_cut_demo :
    (∀ m ∈ (demoAnswers 0).origin.messages, m.room = 1 →
      (∃ n ≤ 2, ∃ m' ∈ (demoPages n).results, m'.id = m.id) ∨
        m.id ∈ ((roomMessages 1 (demoAnswers 2).after).drop 3).map Message.id) ∧
      ((List.range 3).flatMap fun n => (demoPages n).results).length = 3 :=
  history_shown_or_cut demoChatEnv twentyAPage demoWrittenRoom demoReading 2 1 (some 1)
    (by unfold DistinctTimes; decide +kernel) demoAnswers_calls

/-- a message that comes in between the COUNT and the SELECT of the only page takes the place of the oldest one -/
example : ((chatRequests demoChatEnv twentyAPage { demoChat with messages := [demoWritten 1 100] }
    [.start 0 (.history 2 1 ⟨1, none⟩), .step 0, .start 1 demoPost, .step 1, .step 0]).trace.map Entry.result) =
      [none, none, none, some (.ok none),
        some (.ok (some ⟨1, 1, 1, none, none, [demoWritten 3 300]⟩))] := rfl

end GigMarketplace
