/-
Device tokens: RegisterDeviceTokenView of `apps/accounts`, NotificationService of `apps/notifications/services.py` and
the cleanup task of `tasks.py`.

No transaction is opened but by `update_or_create`, so every query, every reading of the clock and every use of the
push provider is a statement of its own (`Core/Threads.lean`); nature advances the clock, in microseconds. `pushes`
holds what has been handed to the provider, which reports its failures and never makes the caller raise. The calls of
NotificationService are those of its text; that its module does not parse as it stands is in `BulkPush.lean` and
`Notifications.lean`.

`registrations` is a ghost: the registrations that have succeeded, with their times. No column holds it and no code
reads it. Left out: the log messages, the texts of the domain-specific notifications, and the column of a notification
that says whether it was read.

Results:
- `keeps_code`: what every statement of these calls keeps: every token is active and has no time of last use, and the
  tokens of the table are the registered ones;
- `retired_iff`: every cleanup leaves no stale token active exactly if none is stale when it runs.
-/
import GigMarketplace.Core.Keeps
import GigMarketplace.Otp
import GigMarketplace.Rest

namespace GigMarketplace

open GigMarketplace.Core

/-! ## State -/

structure DeviceToken where
  id : Pk
  user : Pk
  token : String
  platform : String
  isActive : Bool
  createdAt : ℕ
  lastUsedAt : Option ℕ
deriving DecidableEq, Repr

instance : Keyed DeviceToken Pk := ⟨DeviceToken.id, fun t k => { t with id := k }, fun _ _ => rfl, fun _ => rfl⟩

structure Notification where
  user : Pk
  notificationType : String
  title : String
  body : String
  data : List (String × Json)

/-- a call of `send_to_token` or `send_to_tokens` -/
structure Push where
  tokens : List String
  multicast : Bool
  title : String
  body : String
  data : Option (List (String × Json))
  time : ℕ

structure TokenSite where
  tokens : Table DeviceToken
  notifications : List Notification
  pushes : List Push
  clock : ℕ
  /-- ghost: token and time -/
  registrations : List (String × ℕ)

inductive TokenFailure where
  /-- a ValidationError of the serializer -/
  | invalid
  | keyError (key : String)
  | databaseError
  /-- of the import of a module that does not parse -/
  | syntaxError
deriving DecidableEq, Repr

abbrev TokenCall := Code TokenSite TokenFailure

/-- `timezone.now()` -/
def tokenNow : TokenCall ℕ := .query fun s => .ok s.clock

/-! ## Registration -/

/-- the field of a TextField -/
def textField (v : Json) : Option String :=
  (fieldText v).bind fun s => if strip s = "" ∨ hasNull (strip s) then none else some (strip s)

/-- the field of `platform`; its model has a default, so it need not be there -/
def platformField : Option Json → Option (Option String)
  | none => some none
  | some (.str s) => if s = "ios" ∨ s = "android" ∨ s = "web" then some (some s) else none
  | some _ => none

/-- the fields of RegisterDeviceTokenSerializer, without the validator that asks the database -/
def RegisterDeviceTokenSerializer.fields : Json → Option (String × Option String)
  | .obj fields => do
    let token ← (getField fields "token").bind textField
    let platform ← platformField (getField fields "platform")
    return (token, platform)
  | _ => none

/-- `update_or_create(token=token, defaults={...})`; `id` is the value of the table's sequence -/
def DeviceToken.updateOrCreate (id : Pk) (token : String) (user : Pk) (platform : String) : TokenCall Unit :=
  .act fun s =>
    match s.tokens.rows.find? fun t => t.token = token with
    | some t =>
      .ok ((), { s with
        tokens := s.tokens.update t.id fun r => { r with user := user, platform := platform, isActive := true }
        registrations := s.registrations ++ [(token, s.clock)] })
    | none =>
      if s.tokens.find id = none then
        .ok ((), { s with
          tokens := s.tokens.insert ⟨id, user, token, platform, true, s.clock, none⟩
          registrations := s.registrations ++ [(token, s.clock)] })
      else .error .databaseError

/-- `create` -/
def RegisterDeviceTokenSerializer.create (id user : Pk) (token : String) (platform : Option String) :
    TokenCall Unit := do
  let platform ← Code.ofExcept (platform.elim (.error (.keyError "platform")) .ok)
  DeviceToken.updateOrCreate id token user platform

def RegisterDeviceTokenView.post (user : Pk) (data : Json) (id : Pk) : TokenCall Unit := do
  let (token, platform) ← Code.ofExcept ((RegisterDeviceTokenSerializer.fields data).elim (.error .invalid) .ok)
  -- UniqueValidator
  Code.query fun s => if ∃ t ∈ s.tokens.rows, t.token = token then .error .invalid else .ok ()
  RegisterDeviceTokenSerializer.create id user token platform

/-! ## NotificationService -/

namespace NotificationService

/-- the provider's call -/
def push (tokens : List String) (multicast : Bool) (title body : String) (data : Option (List (String × Json))) :
    TokenCall Unit :=
  .act fun s => .ok ((), { s with pushes := s.pushes ++ [⟨tokens, multicast, title, body, data, s.clock⟩] })

def deliverPush (user : Pk) (title body : String) (data : Option (List (String × Json))) : TokenCall Unit := do
  let tokens ← Code.query fun s =>
    .ok ((s.tokens.rows.filter fun t => t.user = user ∧ t.isActive).map DeviceToken.token)
  match tokens with
  | [] => return ()
  | [token] => push [token] false title body data
  | tokens => push tokens true title body data

def send (user : Pk) (notificationType title body : String) (data : Option (List (String × Json)))
    (sendPush : Bool) : TokenCall Unit := do
  Code.act fun s =>
    .ok ((), { s with notifications := s.notifications ++ [⟨user, notificationType, title, body, data.getD []⟩] })
  if sendPush then deliverPush user title body data else return ()

def sendBulk (users : List Pk) (notificationType title body : String) (data : Option (List (String × Json))) :
    TokenCall Unit := do
  Code.act fun s =>
    .ok ((), { s with
      notifications := s.notifications ++ users.map fun user => ⟨user, notificationType, title, body, data.getD []⟩ })
  let tokens ← Code.query fun s =>
    .ok ((s.tokens.rows.filter fun t => t.user ∈ users ∧ t.isActive).map DeviceToken.token)
  if tokens = [] then return () else push tokens true title body data

end NotificationService

/-! ## The cleanup -/

def ninetyDays : ℕ := seconds (90 * 86400)

/-- `last_used_at__lt=cutoff`; null is less than nothing -/
def DeviceToken.usedBefore (t : DeviceToken) (now : ℕ) : Bool :=
  match t.lastUsedAt with
  | none => false
  | some time => time + ninetyDays < now

/-- `update(is_active=False)` of the rows of the filter -/
def deactivate (now : ℕ) (tokens : Table DeviceToken) : Table DeviceToken :=
  ⟨tokens.rows.map fun t => if t.isActive ∧ t.usedBefore now then { t with isActive := false } else t, by
    have hpk : (fun t : DeviceToken => pk (if t.isActive ∧ t.usedBefore now then { t with isActive := false } else t)) =
        pk := by
      funext t
      split_ifs <;> rfl
    rw [List.map_map]
    change (tokens.rows.map fun t => pk _).Nodup
    rw [hpk]
    exact tokens.nodup⟩

def cleanupExpiredTokens : TokenCall Unit := do
  let now ← tokenNow
  Code.act fun s => .ok ((), { s with tokens := deactivate now s.tokens })

/-! ## Calls -/

inductive TokenOp where
  | register (user : Pk) (data : Json) (id : Pk)
  | send (user : Pk) (notificationType title body : String) (data : Option (List (String × Json))) (sendPush : Bool)
  | sendBulk (users : List Pk) (notificationType title body : String) (data : Option (List (String × Json)))
  | cleanup

def TokenOp.code : TokenOp → TokenCall Unit
  | .register user data id => RegisterDeviceTokenView.post user data id
  | .send user notificationType title body data sendPush =>
    NotificationService.send user notificationType title body data sendPush
  | .sendBulk users notificationType title body data =>
    NotificationService.sendBulk users notificationType title body data
  | .cleanup => cleanupExpiredTokens

/-- the time that passes -/
def tokenNature (n : ℕ) (s : TokenSite) : TokenSite := { s with clock := s.clock + n }

abbrev TokenEntry := Entry TokenSite TokenFailure Unit TokenOp

abbrev TokenEvent := PoolEvent TokenOp ℕ

/-- before the first registration -/
def TokenSite.init (clock : ℕ) : TokenSite := ⟨.empty, [], [], clock, []⟩

def tokenRun (clock : ℕ) (evs : List TokenEvent) : Pool TokenSite TokenFailure Unit TokenOp :=
  (Pool.init (TokenSite.init clock)).run TokenOp.code tokenNature evs

/-! ## What stays -/

/-- every token of the table is active and has no time of last use; the tokens are those that have been registered -/
structure TokensKept (s : TokenSite) : Prop where
  untouched : ∀ t ∈ s.tokens.rows, t.isActive = true ∧ t.lastUsedAt = none
  registered : ∀ t ∈ s.tokens.rows, ∃ r ∈ s.registrations, r.1 = t.token
  present : ∀ r ∈ s.registrations, ∃ t ∈ s.tokens.rows, t.token = r.1

/-- a cleanup changes nothing -/
def TokenStep (op : TokenOp) (s s' : TokenSite) : Prop := op = .cleanup → s' = s

section Keeps

variable {s : TokenSite}

theorem keeps_tokenRead {A : Type} (q : TokenSite → Except TokenFailure A) :
    (Code.query q).Keeps TokensKept (fun _ _ => True) fun _ => True :=
  Code.keeps_query (fun _ => trivial) fun _ _ _ _ => trivial

/-- a statement that leaves the tokens and their registrations alone -/
theorem keeps_elsewhere {f : TokenSite → TokenSite} (htokens : ∀ s, (f s).tokens = s.tokens)
    (hregistrations : ∀ s, (f s).registrations = s.registrations) :
    (Code.act fun s => .ok ((), f s) : TokenCall Unit).Keeps TokensKept (fun _ _ => True) fun _ => True := by
  refine Code.keeps_act (fun _ => trivial) fun s x hs hx => ?_
  cases hx
  refine ⟨⟨?_, ?_, ?_⟩, trivial, trivial⟩
  · rw [htokens]
    exact hs.untouched
  · rw [htokens, hregistrations]
    exact hs.registered
  · rw [htokens, hregistrations]
    exact hs.present

/-- a registration of a token that is there -/
theorem TokensKept.again (h : TokensKept s) {t : DeviceToken} (ht : t ∈ s.tokens.rows) (user : Pk) (platform : String) :
    TokensKept { s with
      tokens := s.tokens.update t.id fun r => { r with user := user, platform := platform, isActive := true }
      registrations := s.registrations ++ [(t.token, s.clock)] } := by
  have hmem := Table.mem_update (Table.find_of_mem ht)
    (f := fun r : DeviceToken => { r with user := user, platform := platform, isActive := true }) rfl
  refine ⟨?_, ?_, ?_⟩
  · intro t' ht'
    rcases (hmem t').1 ht' with rfl | ⟨hrow, -⟩
    · exact ⟨rfl, (h.untouched t ht).2⟩
    · exact h.untouched t' hrow
  · intro t' ht'
    rcases (hmem t').1 ht' with rfl | ⟨hrow, -⟩
    · exact ⟨_, List.mem_append_right _ (List.mem_singleton_self _), rfl⟩
    · obtain ⟨r, hr, hrt⟩ := h.registered t' hrow
      exact ⟨r, List.mem_append_left _ hr, hrt⟩
  · intro r hr
    have hr' : ∃ t₀ ∈ s.tokens.rows, t₀.token = r.1 := by
      rcases List.mem_append.1 hr with hr | hr
      · exact h.present r hr
      · rw [List.mem_singleton.1 hr]
        exact ⟨t, ht, rfl⟩
    obtain ⟨t₀, ht₀, htoken⟩ := hr'
    by_cases hid : pk t₀ = t.id
    · have hsame : t₀ = t := List.inj_on_of_nodup_map s.tokens.nodup ht₀ ht hid
      refine ⟨_, (hmem _).2 (Or.inl rfl), ?_⟩
      rw [← htoken, hsame]
    · exact ⟨t₀, (hmem t₀).2 (Or.inr ⟨ht₀, hid⟩), htoken⟩

/-- the first registration of a token -/
theorem TokensKept.fresh (h : TokensKept s) {t : DeviceToken} (hfresh : s.tokens.find t.id = none)
    (hactive : t.isActive = true) (hunused : t.lastUsedAt = none) :
    TokensKept { s with tokens := s.tokens.insert t, registrations := s.registrations ++ [(t.token, s.clock)] } := by
  have hmem : ∀ t', t' ∈ (s.tokens.insert t).rows ↔ t' ∈ s.tokens.rows ∨ t' = t := fun t' => Table.mem_insert hfresh
  refine ⟨?_, ?_, ?_⟩
  · intro t' ht'
    rcases (hmem t').1 ht' with hrow | rfl
    · exact h.untouched t' hrow
    · exact ⟨hactive, hunused⟩
  · intro t' ht'
    rcases (hmem t').1 ht' with hrow | rfl
    · obtain ⟨r, hr, hrt⟩ := h.registered t' hrow
      exact ⟨r, List.mem_append_left _ hr, hrt⟩
    · exact ⟨_, List.mem_append_right _ (List.mem_singleton_self _), rfl⟩
  · intro r hr
    rcases List.mem_append.1 hr with hr | hr
    · obtain ⟨t₀, ht₀, htoken⟩ := h.present r hr
      exact ⟨t₀, (hmem t₀).2 (Or.inl ht₀), htoken⟩
    · rw [List.mem_singleton.1 hr]
      exact ⟨t, (hmem t).2 (Or.inr rfl), rfl⟩

theorem keeps_updateOrCreate (id : Pk) (token : String) (user : Pk) (platform : String) :
    (DeviceToken.updateOrCreate id token user platform).Keeps TokensKept (fun _ _ => True) fun _ => True := by
  refine Code.keeps_act (fun _ => trivial) fun s x hs hx => ?_
  split at hx
  · rename_i t hfind
    cases hx
    have htoken : t.token = token := by simpa using List.find?_some hfind
    subst htoken
    exact ⟨hs.again (List.mem_of_find?_eq_some hfind) user platform, trivial, trivial⟩
  · split_ifs at hx with hfresh
    cases hx
    exact ⟨hs.fresh hfresh rfl rfl, trivial, trivial⟩

theorem keeps_register (user : Pk) (data : Json) (id : Pk) :
    (RegisterDeviceTokenView.post user data id).Keeps TokensKept (fun _ _ => True) fun _ => True := by
  refine Code.keeps_bind (P := fun _ => True) (Code.keeps_ofExcept fun _ _ => trivial) fun fields _ => ?_
  refine Code.keeps_bind (keeps_tokenRead _) fun _ _ => ?_
  refine Code.keeps_bind (P := fun _ => True) (Code.keeps_ofExcept fun _ _ => trivial) fun platform _ => ?_
  exact keeps_updateOrCreate id fields.1 user platform

theorem keeps_push (tokens : List String) (multicast : Bool) (title body : String)
    (data : Option (List (String × Json))) :
    (NotificationService.push tokens multicast title body data).Keeps TokensKept (fun _ _ => True) fun _ => True :=
  keeps_elsewhere (fun _ => rfl) fun _ => rfl

theorem keeps_deliverPush (user : Pk) (title body : String) (data : Option (List (String × Json))) :
    (NotificationService.deliverPush user title body data).Keeps TokensKept (fun _ _ => True) fun _ => True := by
  refine Code.keeps_bind (keeps_tokenRead _) fun tokens _ => ?_
  match tokens with
  | [] => trivial
  | [_] => exact keeps_push _ _ _ _ _
  | _ :: _ :: _ => exact keeps_push _ _ _ _ _

theorem keeps_sendOne (user : Pk) (notificationType title body : String) (data : Option (List (String × Json)))
    (sendPush : Bool) :
    (NotificationService.send user notificationType title body data sendPush).Keeps TokensKept (fun _ _ => True)
      fun _ => True := by
  refine Code.keeps_bind (keeps_elsewhere (fun _ => rfl) fun _ => rfl) fun _ _ => ?_
  cases sendPush
  · trivial
  · exact keeps_deliverPush user title body data

theorem keeps_sendBulk (users : List Pk) (notificationType title body : String) (data : Option (List (String × Json))) :
    (NotificationService.sendBulk users notificationType title body data).Keeps TokensKept (fun _ _ => True)
      fun _ => True := by
  refine Code.keeps_bind (keeps_elsewhere (fun _ => rfl) fun _ => rfl) fun _ _ => ?_
  refine Code.keeps_bind (keeps_tokenRead _) fun tokens _ => ?_
  split_ifs
  · trivial
  · exact keeps_push _ _ _ _ _

/-- null is before no cutoff -/
theorem deactivate_unused {tokens : Table DeviceToken} (h : ∀ t ∈ tokens.rows, t.lastUsedAt = none) (now : ℕ) :
    deactivate now tokens = tokens := by
  have hkeep : ∀ t ∈ tokens.rows, (if t.isActive ∧ t.usedBefore now then { t with isActive := false } else t) = t := by
    intro t ht
    refine if_neg fun hold => ?_
    have hused : t.usedBefore now = false := by
      unfold DeviceToken.usedBefore
      rw [h t ht]
    rw [hused] at hold
    exact absurd hold.2 Bool.false_ne_true
  refine Table.ext ?_
  calc (deactivate now tokens).rows
      = tokens.rows.map id := List.map_congr_left hkeep
    _ = tokens.rows := List.map_id _

theorem TokenStep.refl (op : TokenOp) (s : TokenSite) : TokenStep op s s := fun _ => rfl

theorem keeps_cleanup : cleanupExpiredTokens.Keeps TokensKept (TokenStep .cleanup) fun _ => True := by
  have hnow : tokenNow.Keeps TokensKept (TokenStep .cleanup) fun _ => True :=
    Code.keeps_query (TokenStep.refl _) fun _ _ _ _ => trivial
  refine Code.keeps_bind hnow fun now _ => ?_
  refine Code.keeps_act (TokenStep.refl _) fun s x hs hx => ?_
  cases hx
  have hsame : deactivate now s.tokens = s.tokens := deactivate_unused (fun t ht => (hs.untouched t ht).2) now
  rw [hsame]
  exact ⟨hs, TokenStep.refl _ _, trivial⟩

/-- every call -/
theorem keeps_code (op : TokenOp) : op.code.Keeps TokensKept (TokenStep op) fun _ => True := by
  have hother : op ≠ .cleanup → ∀ s s' : TokenSite, True → TokenStep op s s' := fun hop _ _ _ heq => absurd heq hop
  cases op with
  | register user data id => exact (keeps_register user data id).step (hother TokenOp.noConfusion)
  | send user notificationType title body data sendPush =>
    exact (keeps_sendOne user notificationType title body data sendPush).step (hother TokenOp.noConfusion)
  | sendBulk users notificationType title body data =>
    exact (keeps_sendBulk users notificationType title body data).step (hother TokenOp.noConfusion)
  | cleanup => exact keeps_cleanup

end Keeps

/-! ## Cleanups -/

/-- registered more than ninety days before `now`, and neither registered again nor used for a push since -/
def Stale (s : TokenSite) (now : ℕ) (token : String) : Prop :=
  ∃ time, (token, time) ∈ s.registrations ∧ time + ninetyDays < now ∧
    (∀ r ∈ s.registrations, r.1 = token → r.2 ≤ time) ∧ ∀ p ∈ s.pushes, token ∈ p.tokens → p.time < time

/-- registered or used for a push within the ninety days before `now` -/
def Recent (s : TokenSite) (now : ℕ) (token : String) : Prop :=
  (∃ r ∈ s.registrations, r.1 = token ∧ now ≤ r.2 + ninetyDays) ∨
    ∃ p ∈ s.pushes, token ∈ p.tokens ∧ now ≤ p.time + ninetyDays

/-- the last statement of a cleanup -/
def Cleaned (e : TokenEntry) : Prop := e.op = .cleanup ∧ e.result ≠ none

/-- no stale token is active any more; `e.origin` is where the cleanup took its time -/
def Retired (e : TokenEntry) : Prop :=
  ∀ t ∈ e.after.tokens.rows, Stale e.before e.origin.clock t.token → t.isActive = false

/-- a recent token is as active as before -/
def Spared (e : TokenEntry) : Prop :=
  ∀ t ∈ e.before.tokens.rows, Recent e.before e.origin.clock t.token →
    ∃ t' ∈ e.after.tokens.rows, t'.token = t.token ∧ t'.isActive = t.isActive

/-- no registered token is stale -/
def AllInUse (e : TokenEntry) : Prop := ∀ r ∈ e.before.registrations, ¬ Stale e.before e.origin.clock r.1

theorem tokensKept_init (clock : ℕ) : TokensKept (TokenSite.init clock) := by
  refine ⟨?_, ?_, ?_⟩
  · intro t ht
    cases ht
  · intro t ht
    cases ht
  · intro r hr
    cases hr

/-- a cleanup is executed where no token has a time of last use, so it changes nothing -/
theorem cleaned_noop (clock : ℕ) (evs : List TokenEvent) {e : TokenEntry} (he : e ∈ (tokenRun clock evs).trace)
    (hclean : Cleaned e) : TokensKept e.before ∧ e.after = e.before := by
  have hnature : ∀ n s, TokensKept s → TokensKept (tokenNature n s) :=
    fun n s hs => ⟨hs.untouched, hs.registered, hs.present⟩
  obtain ⟨-, htrace⟩ := pool_keeps keeps_code hnature (tokensKept_init clock) evs
  obtain ⟨hbefore, hstep⟩ := htrace e he
  exact ⟨hbefore, hstep hclean.1⟩

/-- **When stale tokens are retired.** Every cleanup of a run keeps the tokens that are in use; it leaves no stale token
active exactly if there is none. -/
theorem retired_iff (clock : ℕ) (evs : List TokenEvent) :
    (∀ e ∈ (tokenRun clock evs).trace, Cleaned e → Retired e ∧ Spared e) ↔
      ∀ e ∈ (tokenRun clock evs).trace, Cleaned e → AllInUse e := by
  constructor
  · intro h e he hclean r hr hstale
    obtain ⟨hkept, hafter⟩ := cleaned_noop clock evs he hclean
    obtain ⟨t, ht, htoken⟩ := hkept.present r hr
    have hactive : t.isActive = true := (hkept.untouched t ht).1
    have hinactive : t.isActive = false := by
      refine (h e he hclean).1 t ?_ ?_
      · rw [hafter]
        exact ht
      · rw [htoken]
        exact hstale
    rw [hactive] at hinactive
    cases hinactive
  · intro h e he hclean
    obtain ⟨hkept, hafter⟩ := cleaned_noop clock evs he hclean
    constructor
    · intro t ht hstale
      rw [hafter] at ht
      obtain ⟨r, hr, htoken⟩ := hkept.registered t ht
      rw [← htoken] at hstale
      exact absurd hstale (h e he hclean r hr)
    · intro t ht _
      rw [hafter]
      exact ⟨t, ht, rfl, rfl⟩

/-- a token is registered; ninety-one days later the cleanup runs -/
def demoTokens : List TokenEvent :=
  [.start 0 (.register 1 (.obj [("token", .str "fcm-1"), ("platform", .str "ios")]) 1), .step 0,
    .nature (seconds (91 * 86400)), .start 1 .cleanup, .step 1]

theorem demoTokens_cleanup :
    (tokenRun 0 demoTokens).trace[3]?.map (fun e => (e.op, e.result.isSome, e.origin.clock, e.before.registrations,
      e.before.pushes, e.after.tokens.rows)) =
    some (.cleanup, true, seconds (91 * 86400), [("fcm-1", 0)], [], [⟨1, 1, "fcm-1", "ios", true, 0, none⟩]) := rfl

/-- nothing has used the token since, and it stays active -/
theorem stale_stays_active : ¬ ∀ e ∈ (tokenRun 0 demoTokens).trace, Cleaned e → Retired e ∧ Spared e := by
  intro h
  obtain ⟨e, he, hfields⟩ := Option.map_eq_some_iff.1 demoTokens_cleanup
  simp only [Prod.mk.injEq] at hfields
  obtain ⟨hop, hresult, hclock, hregistrations, hpushes, hrows⟩ := hfields
  have hclean : Cleaned e := ⟨hop, Option.isSome_iff_ne_none.1 hresult⟩
  have hstale : Stale e.before e.origin.clock "fcm-1" := by
    unfold Stale
    rw [hregistrations, hpushes, hclock]
    refine ⟨0, List.mem_singleton_self _, by decide, ?_, List.forall_mem_nil _⟩
    simp
  have hinactive := (h e (List.mem_of_getElem? he) hclean).1 _ (by rw [hrows]; exact List.mem_singleton_self _) hstale
  cases hinactive

end GigMarketplace
