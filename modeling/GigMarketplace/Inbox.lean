/-
The notification inbox: `apps/notifications/views.py`, and the rows that NotificationService creates.

No transaction is opened, so every query and every reading of the clock is a statement of its own (`Core/Threads.lean`);
nature advances the clock. `DeviceTokens.lean` has the service's pushes; here are the columns that say what was read.
Left out: the admin, which may change and delete rows.

Results:
- `assures_inboxOp`: what every statement of a call keeps, and which rows it may change;
- `inbox_law`: in any run a row has a time of reading exactly if it is read, it is never unread again, and it changes by
  the calls of its own user only;
- `reads_counted`: how many notifications of a user are read is what the read-all calls have answered and what the calls
  for single ones have read first, each counted once.
-/
import GigMarketplace.Core.Answers
import GigMarketplace.DeviceTokens
import GigMarketplace.PagedReads

namespace GigMarketplace

open GigMarketplace.Core StandardResultsPagination

/-! ## State -/

/-- a row of notifications_notifications -/
structure InboxRow where
  id : Pk
  notification : Notification
  isRead : Bool
  readAt : Option ℕ
  createdAt : ℕ

instance : Keyed InboxRow Pk := ⟨InboxRow.id, fun r k => { r with id := k }, fun _ _ => rfl, fun _ => rfl⟩

@[simp] theorem pk_inboxRow (r : InboxRow) : pk r = r.id := rfl

structure InboxSite where
  rows : Table InboxRow
  clock : ℕ

abbrev InboxCall := Code InboxSite Exc

/-- `timezone.now()` -/
def inboxNow : InboxCall ℕ := .query fun s => .ok s.clock

inductive InboxAnswer where
  | done
  | message (text : String)
  | created (count : ℕ)
  | markedRead (count : ℕ)
  | unreadCount (count : ℕ)
  | page (page : Page InboxRow)

/-! ## Calls -/

/-- a row that is about to be created; `id` is the value of the table's sequence -/
def newRow (id : Pk) (n : Notification) (now : ℕ) : InboxRow := ⟨id, n, false, none, now⟩

/-- `Notification.objects.create(...)` -/
def Notification.create (id : Pk) (n : Notification) : InboxCall InboxAnswer := do
  let now ← inboxNow
  Code.act fun s =>
    if s.rows.find id = none then .ok ((), { s with rows := s.rows.insert (newRow id n now) })
    else .error .databaseError
  return .done

/-- `auto_now_add` of each object -/
def stamps : ℕ → InboxCall (List ℕ)
  | 0 => return []
  | n + 1 => do
    let now ← inboxNow
    let rest ← stamps n
    return now :: rest

/-- `bulk_create(notifications, ignore_conflicts=True)`: one INSERT -/
def Notification.bulkCreate (ns : List (Pk × Notification)) : InboxCall InboxAnswer := do
  let times ← stamps ns.length
  Code.act fun s =>
    .ok ((), { s with rows := (List.zipWith (fun n now => newRow n.1 n.2 now) ns times).foldl Table.insert s.rows })
  return .created ns.length

/-- `mark_read`, of a row that was loaded before -/
def Notification.markRead (r : InboxRow) : InboxCall Unit :=
  if r.isRead then return ()
  else do
    let now ← inboxNow
    Code.act fun s =>
      if s.rows.find r.id = none then .error .databaseError
      else .ok ((), { s with rows := s.rows.update r.id fun row => { row with isRead := true, readAt := some now } })

def MarkNotificationReadView.post (user id : Pk) : InboxCall InboxAnswer := do
  let r ← Code.query fun s =>
    match s.rows.rows.find? fun r => r.id = id ∧ r.notification.user = user with
    | none => .error (.notFound "Notification not found.")
    | some r => .ok r
  Notification.markRead r
  return .message "Marked as read."

/-- `filter(user=user, is_read=False)` -/
def InboxRow.unreadBy (user : Pk) (r : InboxRow) : Bool := r.notification.user = user ∧ r.isRead = false

/-- `update(is_read=True, read_at=now)` of the user's unread rows -/
def readAll (user : Pk) (now : ℕ) (rows : Table InboxRow) : Table InboxRow :=
  ⟨rows.rows.map fun r => if r.unreadBy user then { r with isRead := true, readAt := some now } else r, by
    have hpk : (fun r : InboxRow =>
        pk (if r.unreadBy user then { r with isRead := true, readAt := some now } else r)) = pk := by
      funext r
      split_ifs <;> rfl
    rw [List.map_map]
    change (rows.rows.map fun r => pk _).Nodup
    rw [hpk]
    exact rows.nodup⟩

def MarkAllReadView.post (user : Pk) : InboxCall InboxAnswer := do
  let now ← inboxNow
  let count ← Code.act fun s =>
    .ok (s.rows.rows.countP (InboxRow.unreadBy user), { s with rows := readAll user now s.rows })
  return .markedRead count

def UnreadCountView.get (user : Pk) : InboxCall InboxAnswer := do
  let count ← Code.query fun s => .ok (s.rows.rows.countP (InboxRow.unreadBy user))
  return .unreadCount count

/-- SmallResultsPagination -/
def smallPages : PageSettings := ⟨10, 50, by decide⟩

/-- `unread` is the query parameter -/
def NotificationListView.get (user : Pk) (unread : Option String) (q : PageQuery) : InboxCall InboxAnswer := do
  let page ← paginateQueryset smallPages q
    (fun s => sortOn InboxRow.createdAt true
      (s.rows.rows.filter fun r => r.notification.user = user ∧ (unread = some "true" → r.isRead = false))) id
  return .page page

inductive InboxOp where
  | create (id : Pk) (n : Notification)
  | bulkCreate (ns : List (Pk × Notification))
  | markRead (user id : Pk)
  | markAllRead (user : Pk)
  | unreadCount (user : Pk)
  | list (user : Pk) (unread : Option String) (q : PageQuery)

def InboxOp.code : InboxOp → InboxCall InboxAnswer
  | .create id n => Notification.create id n
  | .bulkCreate ns => Notification.bulkCreate ns
  | .markRead user id => MarkNotificationReadView.post user id
  | .markAllRead user => MarkAllReadView.post user
  | .unreadCount user => UnreadCountView.get user
  | .list user unread q => NotificationListView.get user unread q

/-- the time that passes -/
def inboxNature (n : ℕ) (s : InboxSite) : InboxSite := { s with clock := s.clock + n }

abbrev InboxPool := Pool InboxSite Exc InboxAnswer InboxOp

def inboxRun (s : InboxSite) (evs : List (PoolEvent InboxOp ℕ)) : InboxPool :=
  (Pool.init s).run InboxOp.code inboxNature evs

/-! ## The law -/

/-- a row has a time of reading exactly if it is read -/
def ReadTimes (s : InboxSite) : Prop := ∀ r ∈ s.rows.rows, r.isRead = true ↔ r.readAt.isSome = true

/-- the call is for this row to be read, by its own user -/
def InboxOp.Reads (r : InboxRow) : InboxOp → Prop
  | .markRead user id => user = r.notification.user ∧ id = r.id
  | .markAllRead user => user = r.notification.user
  | _ => False

/-- a row and the same row later: the columns that say what was read may differ, but it is not unread again -/
def InboxRow.Since (r r' : InboxRow) : Prop :=
  { r' with isRead := r.isRead, readAt := r.readAt } = r ∧ (r.isRead = true → r'.isRead = true)

/-- what one statement of a call may do: rows stay, the user's own calls read them, and new ones are unread -/
structure InboxStep (op : InboxOp) (s s' : InboxSite) : Prop where
  stays : ∀ r ∈ s.rows.rows, ∃ r' ∈ s'.rows.rows, r.Since r' ∧ (r' = r ∨ op.Reads r)
  fresh : ∀ r' ∈ s'.rows.rows, (∃ r ∈ s.rows.rows, r.id = r'.id) ∨ r'.isRead = false

section Keeps

variable {s : InboxSite} {op : InboxOp} {r r' : InboxRow} {user id : Pk} {now : ℕ}

theorem InboxRow.Since.refl (r : InboxRow) : r.Since r := ⟨rfl, fun h => h⟩

theorem InboxStep.refl (op : InboxOp) (s : InboxSite) : InboxStep op s s :=
  ⟨fun r hr => ⟨r, hr, .refl r, .inl rfl⟩, fun r hr => .inl ⟨r, hr, rfl⟩⟩

theorem keeps_inboxRead {A : Type} (q : InboxSite → Except Exc A) :
    (Code.query q).Keeps ReadTimes (InboxStep op) fun _ => True :=
  Code.keeps_query (InboxStep.refl op) fun _ _ _ _ => trivial

/-- rows come in by INSERT, if their keys are free -/
theorem mem_foldl_insert (new : List InboxRow) (t : Table InboxRow) :
    (∀ r ∈ t.rows, r ∈ (new.foldl Table.insert t).rows) ∧
      ∀ r ∈ (new.foldl Table.insert t).rows, r ∈ t.rows ∨ r ∈ new := by
  induction new generalizing t with
  | nil => exact ⟨fun r hr => hr, fun r hr => Or.inl hr⟩
  | cons n new ih =>
    have hone : (∀ r ∈ t.rows, r ∈ (t.insert n).rows) ∧ ∀ r ∈ (t.insert n).rows, r ∈ t.rows ∨ r = n := by
      by_cases hfree : t.find (pk n) = none
      · have hmem : ∀ r, r ∈ (t.insert n).rows ↔ r ∈ t.rows ∨ r = n := fun r => Table.mem_insert hfree
        exact ⟨fun r hr => (hmem r).2 (Or.inl hr), fun r hr => (hmem r).1 hr⟩
      · rw [Table.insert, dif_neg hfree]
        exact ⟨fun r hr => hr, fun r hr => Or.inl hr⟩
    obtain ⟨hstay, hnew⟩ := ih (t.insert n)
    refine ⟨fun r hr => hstay r (hone.1 r hr), fun r hr => ?_⟩
    rcases hnew r hr with hold | hlater
    · rcases hone.2 r hold with hrow | rfl
      · exact Or.inl hrow
      · exact Or.inr List.mem_cons_self
    · exact Or.inr (List.mem_cons_of_mem _ hlater)

/-- new rows that nobody has read -/
theorem step_insert (op : InboxOp) (hJ : ReadTimes s) {new : List InboxRow}
    (hnew : ∀ r ∈ new, r.isRead = false ∧ r.readAt = none) :
    ReadTimes { s with rows := new.foldl Table.insert s.rows } ∧
      InboxStep op s { s with rows := new.foldl Table.insert s.rows } := by
  obtain ⟨hstay, hmem⟩ := mem_foldl_insert new s.rows
  refine ⟨fun r hr => ?_, fun r hr => ⟨r, hstay r hr, .refl r, .inl rfl⟩, fun r hr => ?_⟩
  · rcases hmem r hr with hold | hfresh
    · exact hJ r hold
    · obtain ⟨hunread, htime⟩ := hnew r hfresh
      rw [hunread, htime]
      exact iff_of_false Bool.false_ne_true Bool.false_ne_true
  · rcases hmem r hr with hold | hfresh
    · exact Or.inl ⟨r, hold, rfl⟩
    · exact Or.inr (hnew r hfresh).1

/-- `f` reads the rows that it changes -/
theorem step_read (op : InboxOp) (now : ℕ) (t : Table InboxRow) {f : InboxRow → InboxRow} (hJ : ReadTimes s)
    (hrows : t.rows = s.rows.rows.map f)
    (hf : ∀ r ∈ s.rows.rows, f r = r ∨ (op.Reads r ∧ f r = { r with isRead := true, readAt := some now })) :
    ReadTimes { s with rows := t } ∧ InboxStep op s { s with rows := t } := by
  refine ⟨?_, ?_, ?_⟩
  · intro r' hr'
    dsimp only at hr'
    rw [hrows] at hr'
    obtain ⟨r, hr, rfl⟩ := List.mem_map.1 hr'
    rcases hf r hr with hsame | ⟨-, hread⟩
    · rw [hsame]
      exact hJ r hr
    · rw [hread]
      exact iff_of_true rfl rfl
  · intro r hr
    refine ⟨f r, ?_, ?_⟩
    · dsimp only
      rw [hrows]
      exact List.mem_map_of_mem hr
    · rcases hf r hr with hsame | ⟨hmay, hread⟩
      · rw [hsame]
        exact ⟨.refl r, Or.inl rfl⟩
      · rw [hread]
        exact ⟨⟨rfl, fun _ => rfl⟩, Or.inr hmay⟩
  · intro r' hr'
    dsimp only at hr'
    rw [hrows] at hr'
    obtain ⟨r, hr, rfl⟩ := List.mem_map.1 hr'
    left
    refine ⟨r, hr, ?_⟩
    rcases hf r hr with hsame | ⟨-, hread⟩
    · rw [hsame]
    · rw [hread]

/-! ### Calls -/

theorem keeps_stamps (n : ℕ) : (stamps n).Keeps ReadTimes (InboxStep op) fun _ => True := by
  induction n with
  | zero => trivial
  | succ n ih =>
    refine Code.keeps_bind (keeps_inboxRead _) fun now _ => ?_
    exact Code.keeps_bind ih fun _ _ => trivial

/-- nobody has read the new rows -/
theorem new_rows (ns : List (Pk × Notification)) (times : List ℕ) :
    ∀ r ∈ List.zipWith (fun n now => newRow n.1 n.2 now) ns times, r.isRead = false ∧ r.readAt = none := by
  intro r hr
  obtain ⟨i, hi, rfl⟩ := List.getElem_of_mem hr
  rw [List.getElem_zipWith]
  exact ⟨rfl, rfl⟩

theorem keeps_createNotification (id : Pk) (n : Notification) :
    (Notification.create id n).Keeps ReadTimes (InboxStep op) fun _ => True := by
  refine Code.keeps_bind (keeps_inboxRead _) fun now _ => ?_
  refine Code.keeps_bind (P := fun _ => True) ?_ fun _ _ => trivial
  refine Code.keeps_act (InboxStep.refl op) fun s x hJ hx => ?_
  split_ifs at hx
  cases hx
  obtain ⟨hJ', hstep⟩ := step_insert op hJ (new_rows [(id, n)] [now])
  exact ⟨hJ', hstep, trivial⟩

theorem keeps_bulkCreate (ns : List (Pk × Notification)) :
    (Notification.bulkCreate ns).Keeps ReadTimes (InboxStep op) fun _ => True := by
  refine Code.keeps_bind (keeps_stamps ns.length) fun times _ => ?_
  refine Code.keeps_bind (P := fun _ => True) ?_ fun _ _ => trivial
  refine Code.keeps_act (InboxStep.refl op) fun s x hJ hx => ?_
  cases hx
  obtain ⟨hJ', hstep⟩ := step_insert op hJ (new_rows ns times)
  exact ⟨hJ', hstep, trivial⟩

theorem keeps_markAllRead (user : Pk) :
    (MarkAllReadView.post user).Keeps ReadTimes (InboxStep (.markAllRead user)) fun _ => True := by
  refine Code.keeps_bind (keeps_inboxRead _) fun now _ => ?_
  refine Code.keeps_bind (P := fun _ => True) ?_ fun _ _ => trivial
  refine Code.keeps_act (InboxStep.refl _) fun s x hJ hx => ?_
  cases hx
  obtain ⟨hJ', hstep⟩ := step_read (.markAllRead user) now (readAll user now s.rows) hJ rfl
    fun r _ => by
      by_cases hunread : r.unreadBy user = true
      · right
        rw [if_pos hunread]
        have huser : user = r.notification.user := by
          simp only [InboxRow.unreadBy, decide_eq_true_eq] at hunread
          exact hunread.1.symm
        exact ⟨huser, rfl⟩
      · left
        rw [if_neg hunread]
  exact ⟨hJ', hstep, trivial⟩

/-! ### A single notification -/

/-- rows stay, and are not unread again -/
def RowsStay (s s' : InboxSite) : Prop := ∀ r ∈ s.rows.rows, ∃ r' ∈ s'.rows.rows, r.Since r'

theorem RowsStay.refl (s : InboxSite) : RowsStay s s := fun r hr => ⟨r, hr, .refl r⟩

theorem RowsStay.trans {s₁ s₂ s₃ : InboxSite} (h : RowsStay s₁ s₂) (h' : RowsStay s₂ s₃) : RowsStay s₁ s₃ := by
  intro r hr
  obtain ⟨r₂, hr₂, hcolumns, hread⟩ := h r hr
  obtain ⟨r₃, hr₃, hcolumns', hread'⟩ := h' r₂ hr₂
  refine ⟨r₃, hr₃, ?_, fun hr => hread' (hread hr)⟩
  rw [← hcolumns'] at hcolumns
  exact hcolumns

theorem InboxStep.stay {s s' : InboxSite} (h : InboxStep op s s') : RowsStay s s' := by
  intro r hr
  obtain ⟨r', hr', hsince, -⟩ := h.stays r hr
  exact ⟨r', hr', hsince⟩

/-- `mark_read` of a row that the user has, however long ago it was loaded -/
theorem assures_saveRead (hr : r ∈ s.rows.rows) (hid : r.id = id) (huser : r.notification.user = user) :
    (Notification.markRead r).Assures ReadTimes RowsStay (InboxStep (.markRead user id)) (fun _ _ => True) s := by
  unfold Notification.markRead
  split_ifs
  · trivial
  · refine Code.assures_bind (P := fun _ s' => RowsStay s s') ?_ ?_
    · apply Code.assures_query (InboxStep.refl _)
      intro s' now hR _ _
      exact hR
    · intro now s₁ hstay
      apply Code.assures_act (InboxStep.refl _)
      intro s' x hR hJ hx
      split_ifs at hx
      cases hx
      -- the row is still the user's
      obtain ⟨r', hr', hcolumns, -⟩ := hstay.trans hR r hr
      have hid' : r'.id = r.id := by rw [← hcolumns]
      have huser' : r'.notification = r.notification := by rw [← hcolumns]
      obtain ⟨hJ', hstep⟩ := step_read (.markRead user id) now
        (s'.rows.update r.id fun row => { row with isRead := true, readAt := some now }) hJ rfl fun row hrow => by
          by_cases hkey : pk row = r.id
          · right
            have hsame : row = r' := List.inj_on_of_nodup_map s'.rows.nodup hrow hr' (hkey.trans hid'.symm)
            subst hsame
            rw [if_pos hkey]
            refine ⟨⟨?_, ?_⟩, ?_⟩
            · rw [huser', huser]
            · rw [hid', hid]
            · rw [← hkey]
              rfl
          · left
            rw [if_neg hkey]
      exact ⟨hJ', hstep, trivial⟩

theorem assures_markRead (user id : Pk) :
    (MarkNotificationReadView.post user id).Assures ReadTimes RowsStay (InboxStep (.markRead user id))
      (fun _ _ => True) s := by
  refine Code.assures_bind (P := fun r s' => r ∈ s'.rows.rows ∧ r.id = id ∧ r.notification.user = user) ?_ ?_
  · apply Code.assures_query (InboxStep.refl _)
    intro s' r _ _ h
    split at h
    · cases h
    · rename_i found hfind
      cases h
      have hfound : r.id = id ∧ r.notification.user = user := by simpa using List.find?_some hfind
      exact ⟨List.mem_of_find?_eq_some hfind, hfound⟩
  · rintro r s' ⟨hr, hid, huser⟩
    exact Code.assures_bind (assures_saveRead hr hid huser) fun _ _ _ => trivial

/-- **What a call keeps**, and which rows it may change. -/
theorem assures_inboxOp (op : InboxOp) :
    op.code.Assures ReadTimes RowsStay (InboxStep op) (fun _ _ => True) s := by
  cases op with
  | create id n => exact (keeps_createNotification id n).assures
  | bulkCreate ns => exact (keeps_bulkCreate ns).assures
  | markRead user id => exact assures_markRead user id
  | markAllRead user => exact (keeps_markAllRead user).assures
  | unreadCount user =>
    have hkeeps : (UnreadCountView.get user).Keeps ReadTimes (InboxStep (.unreadCount user)) fun _ => True :=
      Code.keeps_bind (keeps_inboxRead _) fun _ _ => trivial
    exact hkeeps.assures
  | list user unread q =>
    have hkeeps : (NotificationListView.get user unread q).Keeps ReadTimes (InboxStep (.list user unread q))
        fun _ => True := by
      refine Code.keeps_bind (P := fun _ => True) ?_ fun _ _ => trivial
      refine Code.keeps_bind (keeps_inboxRead _) fun count _ => ?_
      exact Code.keeps_bind (Code.keeps_raiseIf _ _) fun _ _ => keeps_inboxRead _
    exact hkeeps.assures

end Keeps

/-- **The law of the inbox**, in any interleaving: a row has a time of reading exactly if it is read; rows stay, with
the columns they were created with, and are never unread again; and a row changes only by a call of its own user that
reads it, or all of them. -/
theorem inbox_law (s : InboxSite) (hs : ReadTimes s) (evs : List (PoolEvent InboxOp ℕ)) :
    ReadTimes (inboxRun s evs).mem ∧ ∀ e ∈ (inboxRun s evs).trace, InboxStep e.op e.before e.after := by
  have hnature : ∀ n s, ReadTimes s → ReadTimes (inboxNature n s) ∧ RowsStay s (inboxNature n s) :=
    fun n s hJ => ⟨hJ, RowsStay.refl s⟩
  have h := pool_assures (P := fun _ _ _ _ => True) (G := fun op _ => InboxStep op) RowsStay.refl
    (fun _ _ _ => RowsStay.trans) (fun _ _ _ _ => InboxStep.stay)
    (fun op s hJ _ => (assures_inboxOp op).start (RowsStay.refl s) hJ) hnature hs (meets_starts_true _ evs)
  exact ⟨h.1, fun e he => (h.2 e he).2.1⟩

def demoNotification : Notification := ⟨1, "job_accepted", "Your job was accepted!", "Ali accepted \"Fence\"", []⟩

/-- two unread notifications of one user -/
def demoInbox : InboxSite := ⟨⟨[newRow 1 demoNotification 10, newRow 2 demoNotification 20], by decide⟩, 100⟩

/-- the first one is read, while the user reads all of them -/
def demoReads : List (PoolEvent InboxOp ℕ) :=
  [.start 0 (.markRead 1 1), .step 0, .nature 5, .start 1 (.markAllRead 1), .step 1, .step 0]

theorem inbox_law_demo : ReadTimes (inboxRun demoInbox demoReads).mem ∧
    ∀ e ∈ (inboxRun demoInbox demoReads).trace, InboxStep e.op e.before e.after := by
  refine inbox_law demoInbox ?_ demoReads
  intro r hr
  rcases List.mem_cons.1 hr with rfl | hr
  · decide
  · cases List.mem_singleton.1 hr
    decide

/-- the save of the first call comes last, with the earlier time -/
example : (inboxRun demoInbox demoReads).mem.rows.rows.map InboxRow.readAt = [some 100, some 105] := by decide +kernel

/-! ## The count -/

/-- how many of a user's notifications are read -/
def readCount (user : Pk) (s : InboxSite) : ℕ := s.rows.rows.countP fun r => r.notification.user = user ∧ r.isRead = true

/-- the statement reads the row `id`, which the user had not read before -/
def readsFirst (user id : Pk) (s s' : InboxSite) : Bool :=
  (s.rows.find id).any (InboxRow.unreadBy user) && (s'.rows.find id).any InboxRow.isRead

/-- what an entry adds to `readCount`: for a read-all call what it answers -/
def countedReads (user : Pk) : InboxOp → InboxSite → InboxSite → Option (Except Exc InboxAnswer) → ℕ
  | .markRead _ id, s, s', _ => if readsFirst user id s s' then 1 else 0
  | .markAllRead user', _, _, some (.ok (.markedRead n)) => if user' = user then n else 0
  | _, _, _, _ => 0

section Count

variable {s s' : InboxSite} {user user' id : Pk} {now : ℕ}

/-- a statement that reads nothing for the user -/
def SameCount (user : Pk) (s s' : InboxSite) : Prop := readCount user s' = readCount user s

theorem SameCount.refl (s : InboxSite) : SameCount user s s := rfl

theorem each_inboxRead {A : Type} (q : InboxSite → Except Exc A) : (Code.query q).Each (SameCount user) :=
  Code.each_query SameCount.refl q

theorem readCount_insert (new : List InboxRow) (hnew : ∀ r ∈ new, r.isRead = false) (t : Table InboxRow) (clock : ℕ) :
    readCount user ⟨new.foldl Table.insert t, clock⟩ = readCount user ⟨t, clock⟩ := by
  induction new generalizing t with
  | nil => rfl
  | cons n new ih =>
    have hone : readCount user ⟨t.insert n, clock⟩ = readCount user ⟨t, clock⟩ := by
      by_cases hfree : t.find (pk n) = none
      · have hunread : n.isRead = false := hnew n List.mem_cons_self
        simp [readCount, Table.rows_insert hfree, hunread]
      · rw [Table.insert, dif_neg hfree]
    exact (ih (fun r hr => hnew r (List.mem_cons_of_mem _ hr)) (t.insert n)).trans hone

/-- nothing is read first where nothing changes -/
theorem readsFirst_self : readsFirst user id s s = false := by
  unfold readsFirst
  cases s.rows.find id with
  | none => rfl
  | some r =>
    cases hread : r.isRead with
    | true => simp [InboxRow.unreadBy, hread]
    | false => simp [hread]

theorem readCount_update (id : Pk) (s : InboxSite) (hfound : s.rows.find id ≠ none) :
    readCount user { s with rows := s.rows.update id fun row => { row with isRead := true, readAt := some now } } =
      readCount user s + if readsFirst user id s
        { s with rows := s.rows.update id fun row => { row with isRead := true, readAt := some now } } then 1 else 0 := by
  obtain ⟨r, hr⟩ := Option.ne_none_iff_exists'.1 hfound
  obtain ⟨l₁, l₂, hbefore, hafter⟩ :=
    @Table.rows_update _ _ _ _ _ _ (fun row : InboxRow => { row with isRead := true, readAt := some now }) _ hr rfl
  have hfind :=
    @Table.find_update_self _ _ _ _ _ _ (fun row : InboxRow => { row with isRead := true, readAt := some now }) _ hr rfl
  simp only [readCount, readsFirst, hbefore, hafter, hr, hfind, List.countP_append, List.countP_cons, Option.any_some,
    InboxRow.unreadBy]
  by_cases huser : r.notification.user = user
  · cases r.isRead with
    | true => simp [huser]
    | false =>
      simp [huser]
      omega
  · simp [huser]

theorem readCount_readAll (s : InboxSite) :
    readCount user { s with rows := readAll user' now s.rows } =
      readCount user s + if user' = user then s.rows.rows.countP (InboxRow.unreadBy user') else 0 := by
  unfold readCount readAll
  dsimp only
  generalize s.rows.rows = rows
  induction rows with
  | nil => simp
  | cons r rows ih =>
    rw [List.map_cons, List.countP_cons, ih, List.countP_cons, List.countP_cons]
    by_cases hself : user' = user
    · subst hself
      by_cases huser : r.notification.user = user'
      · cases hread : r.isRead <;> simp [InboxRow.unreadBy, huser, hread] <;> omega
      · simp [InboxRow.unreadBy, huser]
    · by_cases huser : r.notification.user = user
      · have hother : ¬ r.notification.user = user' := fun h => hself (h.symm.trans huser)
        simp [InboxRow.unreadBy, hself, hother]
      · by_cases hunread : r.unreadBy user' = true
        · simp [huser, hself, hunread]
        · simp [huser, hself, hunread]

theorem each_stamps (n : ℕ) : (stamps n).Each (SameCount user) := by
  induction n with
  | zero => trivial
  | succ n ih =>
    refine Code.each_bind (each_inboxRead _) fun now => ?_
    exact Code.each_bind ih fun _ => trivial

theorem adds_self (s : InboxSite) (x : Option (Except Exc InboxAnswer)) :
    Adds (readCount user) (countedReads user (.markRead user' id)) s s x := by
  change readCount user s = readCount user s + if readsFirst user id s s then 1 else 0
  rw [readsFirst_self]
  rfl

/-- `mark_read` of a row that was found by its id -/
theorem answering_saveRead {r : InboxRow} (hid : r.id = id) :
    (Notification.markRead r >>= fun _ => pure (.message "Marked as read.")).Answering
      (Adds (readCount user) (countedReads user (.markRead user' id))) := by
  unfold Notification.markRead
  split_ifs
  · trivial
  · rw [Code.bind_bind]
    refine Code.answering_query_bind (fun s now _ => ⟨adds_self s _, ?_⟩) fun s e => adds_self s _
    refine Code.answering_act_bind (fun _ => trivial) ?_ fun s e => adds_self s _
    intro s x hx
    split_ifs at hx with hgone
    cases hx
    rw [hid] at hgone ⊢
    exact readCount_update id s hgone

/-- what every statement of a call adds to the count -/
theorem answering_inboxOp (op : InboxOp) : op.code.Answering (Adds (readCount user) (countedReads user op)) := by
  cases op with
  | create id n =>
    refine Code.answering_each (S := SameCount user) ?_ fun _ _ _ h => h
    refine Code.each_bind (each_inboxRead _) fun now => ?_
    refine Code.each_bind ?_ fun _ => trivial
    apply Code.each_act SameCount.refl
    intro s x hx
    split_ifs at hx
    cases hx
    exact readCount_insert _ (fun r hr => (new_rows [(id, n)] [now] r hr).1) s.rows s.clock
  | bulkCreate ns =>
    refine Code.answering_each (S := SameCount user) ?_ fun _ _ _ h => h
    refine Code.each_bind (each_stamps ns.length) fun times => ?_
    refine Code.each_bind ?_ fun _ => trivial
    apply Code.each_act SameCount.refl
    intro s x hx
    cases hx
    exact readCount_insert _ (fun r hr => (new_rows ns times r hr).1) s.rows s.clock
  | markRead user' id =>
    refine Code.answering_query_bind (fun s r hr => ⟨adds_self s _, answering_saveRead ?_⟩) fun s e => adds_self s _
    split at hr
    · cases hr
    · rename_i found hfind
      cases hr
      have hfound : r.id = id ∧ r.notification.user = user' := by simpa using List.find?_some hfind
      exact hfound.1
  | markAllRead user' =>
    refine Code.answering_query_bind (fun s now _ => ⟨rfl, ?_⟩) fun s e => rfl
    refine Code.answering_act_bind (fun _ => trivial) ?_ fun s e => rfl
    intro s x hx
    cases hx
    exact readCount_readAll s
  | unreadCount user' =>
    refine Code.answering_each (S := SameCount user) ?_ fun _ _ _ h => h
    exact Code.each_bind (each_inboxRead _) fun _ => trivial
  | list user' unread q =>
    refine Code.answering_each (S := SameCount user) ?_ fun _ _ _ h => h
    exact Code.each_bind (each_paginateQueryset SameCount.refl) fun _ => trivial

end Count

/-- **Reads are counted once.** In any interleaving, the number of a user's notifications that are read is the number at
first, and what the read-all calls have answered, and one for each notification that a call for a single one has read
first. -/
theorem reads_counted (s : InboxSite) (evs : List (PoolEvent InboxOp ℕ)) (user : Pk) :
    readCount user (inboxRun s evs).mem =
      readCount user s + ((inboxRun s evs).trace.map (addedBy (countedReads user))).sum :=
  accounts answering_inboxOp (fun (n : ℕ) s => (rfl : readCount user (inboxNature n s) = readCount user s)) s evs

/-- both notifications are in the read-all call's answer, so the save of the other call reads none first -/
example : (inboxRun demoInbox demoReads).trace.map (addedBy (countedReads 1)) = [0, 0, 0, 2, 0] := by decide +kernel

end GigMarketplace
