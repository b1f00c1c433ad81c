/-
send_bulk with the Firebase provider of `apps/notifications/push.py`: which tokens FCM gets.

`NotificationService.sendBulk` (`DeviceTokens.lean`) hands all active tokens of the users to the provider in one call of
send_to_tokens. The provider puts them into one MulticastMessage, and send_each_for_multicast raises for more than 500
tokens; the provider catches that and reports a failure, which nobody reads. The users are capped at 500
(notify_new_job), their tokens are not.

`importable` says whether `apps/notifications/services.py` can be imported at all: as the file stands, the f-strings in
`notify_job_accepted` and `notify_job_completed` do not parse, and whoever imports NotificationService gets a
SyntaxError before any call.

Every token is valid: a request that FCM accepts is delivered. Left out: the options for Android and iOS.

Results:
- `run_sendBulk`: what send_bulk records and hands on;
- `bulk_reaches_iff`: every active token of the users is submitted once iff the module can be imported and there are at
  most 500 of them.
-/
import GigMarketplace.DeviceTokens

namespace GigMarketplace

open GigMarketplace.Core

/-! ## Firebase -/

/-- a request that FCM has accepted -/
structure FcmRequest where
  tokens : List String
  title : String
  body : String
  data : List (String × String)
deriving DecidableEq, Repr

/-- the dict that a provider returns -/
structure PushResult where
  success : ℕ
  failure : ℕ
deriving DecidableEq, Repr

/-- the most tokens that one MulticastMessage takes -/
def multicastLimit : ℕ := 500

/-- `messaging.send_each_for_multicast(message)`; none: it raises -/
def sendEachForMulticast (message : FcmRequest) (accepted : List FcmRequest) : Option (List FcmRequest) :=
  if multicastLimit < message.tokens.length then none else some (accepted ++ [message])

namespace FirebasePushProvider

/-- `{k: str(v) for k, v in (data or {}).items()}` -/
def dataTexts (py : Py) (data : Option (List (String × Json))) : List (String × String) :=
  (data.getD []).map fun field => (field.1, field.2.format py)

def sendToToken (py : Py) (token title body : String) (data : Option (List (String × Json)))
    (accepted : List FcmRequest) : PushResult × List FcmRequest :=
  (⟨1, 0⟩, accepted ++ [⟨[token], title, body, dataTexts py data⟩])

def sendToTokens (py : Py) (tokens : List String) (title body : String) (data : Option (List (String × Json)))
    (accepted : List FcmRequest) : PushResult × List FcmRequest :=
  if tokens = [] then (⟨0, 0⟩, accepted)
  else
    match sendEachForMulticast ⟨tokens, title, body, dataTexts py data⟩ accepted with
    | some accepted => (⟨tokens.length, 0⟩, accepted)
    | none => (⟨0, tokens.length⟩, accepted)

/-- what FCM has accepted after a call of the provider -/
def perform (py : Py) (accepted : List FcmRequest) (p : Push) : List FcmRequest :=
  if p.multicast then (sendToTokens py p.tokens p.title p.body p.data accepted).2
  else p.tokens.foldl (fun accepted token => (sendToToken py token p.title p.body p.data accepted).2) accepted

/-- the tokens in the requests that FCM accepts of these calls -/
def submitted (py : Py) (pushes : List Push) : List String :=
  (pushes.foldl (perform py) []).flatMap FcmRequest.tokens

end FirebasePushProvider

open FirebasePushProvider

/-! ## send_bulk -/

/-- the active tokens of these users -/
def activeTokens (users : List Pk) (s : TokenSite) : List String :=
  (s.tokens.rows.filter fun t => t.user ∈ users ∧ t.isActive).map DeviceToken.token

/-- `from apps.notifications.services import NotificationService` -/
def importNotificationService (importable : Bool) : TokenCall Unit :=
  Code.ofExcept (if importable then .ok () else .error .syntaxError)

/-- send_bulk, as its callers get to it -/
def importAndSendBulk (importable : Bool) (users : List Pk) (notificationType title body : String)
    (data : Option (List (String × Json))) : TokenCall Unit := do
  importNotificationService importable
  NotificationService.sendBulk users notificationType title body data

/-- One notification for each user; and FCM accepts each active token of these users exactly once, in the requests that
the call makes. -/
def BulkReaches (importable : Bool) (py : Py) (users : List Pk) (notificationType title body : String)
    (data : Option (List (String × Json))) (s : TokenSite) : Prop :=
  ∃ s', (importAndSendBulk importable users notificationType title body data).run s = (.ok (), s') ∧
    s'.notifications = s.notifications ++ users.map (fun user => ⟨user, notificationType, title, body, data.getD []⟩) ∧
    ∃ pushes, s'.pushes = s.pushes ++ pushes ∧
      ∀ t ∈ s.tokens.rows, t.user ∈ users → t.isActive = true → (submitted py pushes).count t.token = 1

section

variable {py : Py} {users : List Pk} {notificationType title body : String} {data : Option (List (String × Json))}
  {s : TokenSite}

/-- the calls of the provider that send_bulk makes -/
def bulkPushes (users : List Pk) (title body : String) (data : Option (List (String × Json))) (s : TokenSite) :
    List Push :=
  if activeTokens users s = [] then [] else [⟨activeTokens users s, true, title, body, data, s.clock⟩]

theorem run_sendBulk (users : List Pk) (notificationType title body : String) (data : Option (List (String × Json)))
    (s : TokenSite) :
    (NotificationService.sendBulk users notificationType title body data).run s = (.ok (), { s with
      notifications := s.notifications ++ users.map fun user => ⟨user, notificationType, title, body, data.getD []⟩
      pushes := s.pushes ++ bulkPushes users title body data s }) := by
  change (if activeTokens users s = [] then return () else
    NotificationService.push (activeTokens users s) true title body data : TokenCall Unit).run { s with
      notifications := s.notifications ++
        users.map fun user => ⟨user, notificationType, title, body, data.getD []⟩ } = _
  unfold bulkPushes
  split_ifs
  · rw [List.append_nil]
    rfl
  · rfl

/-- FCM gets all the tokens, or none -/
theorem submitted_bulk (py : Py) (users : List Pk) (title body : String) (data : Option (List (String × Json)))
    (s : TokenSite) :
    submitted py (bulkPushes users title body data s) =
      if (activeTokens users s).length ≤ multicastLimit then activeTokens users s else [] := by
  unfold bulkPushes submitted
  by_cases hnone : activeTokens users s = []
  · rw [if_pos hnone, hnone]
    rfl
  · rw [if_neg hnone, List.foldl_cons, List.foldl_nil, perform, if_pos rfl, sendToTokens, if_neg hnone,
      sendEachForMulticast]
    by_cases hlimit : multicastLimit < (activeTokens users s).length
    · rw [if_pos hlimit, if_neg (Nat.not_le.2 hlimit)]
      rfl
    · rw [if_neg hlimit, if_pos (Nat.not_lt.1 hlimit)]
      simp

/-- the module does not parse: whoever asks for it gets the SyntaxError, and nothing is recorded -/
theorem run_not_importable (users : List Pk) (notificationType title body : String)
    (data : Option (List (String × Json))) (s : TokenSite) :
    (importAndSendBulk false users notificationType title body data).run s = (.error .syntaxError, s) :=
  rfl

/-- what is left to show of a bulk push -/
theorem bulkReaches_iff_count :
    BulkReaches true py users notificationType title body data s ↔
      ∀ t ∈ s.tokens.rows, t.user ∈ users → t.isActive = true →
        (submitted py (bulkPushes users title body data s)).count t.token = 1 := by
  have hrun : (importAndSendBulk true users notificationType title body data).run s =
      (NotificationService.sendBulk users notificationType title body data).run s := rfl
  unfold BulkReaches
  rw [hrun, run_sendBulk]
  constructor
  · rintro ⟨s', hrun, -, pushes, hpushes, hcount⟩
    cases hrun
    rw [List.append_cancel_left hpushes]
    exact hcount
  · exact fun hcount => ⟨_, rfl, rfl, _, rfl, hcount⟩

theorem mem_activeTokens {token : String} :
    token ∈ activeTokens users s ↔ ∃ t ∈ s.tokens.rows, t.user ∈ users ∧ t.isActive = true ∧ t.token = token := by
  simp [activeTokens, and_assoc]

/-- nobody is reached through a module that does not parse -/
theorem not_reached_by_import : ¬ BulkReaches false py users notificationType title body data s := by
  rintro ⟨s', hrun, -⟩
  rw [run_not_importable] at hrun
  cases hrun

/-- beyond the limit nobody is reached -/
theorem not_reached (hlimit : multicastLimit < (activeTokens users s).length) :
    ¬ BulkReaches true py users notificationType title body data s := by
  rw [bulkReaches_iff_count, submitted_bulk, if_neg (Nat.not_le.2 hlimit)]
  intro hcount
  obtain ⟨token, htoken⟩ := List.exists_mem_of_length_pos (Nat.zero_lt_of_lt hlimit)
  obtain ⟨t, ht, huser, hactive, -⟩ := mem_activeTokens.1 htoken
  have hone := hcount t ht huser hactive
  rw [List.count_nil] at hone
  cases hone

theorem all_reached (hunique : (s.tokens.rows.map DeviceToken.token).Nodup)
    (hlimit : (activeTokens users s).length ≤ multicastLimit) :
    BulkReaches true py users notificationType title body data s := by
  rw [bulkReaches_iff_count, submitted_bulk, if_pos hlimit]
  intro t ht huser hactive
  have hnodup : (activeTokens users s).Nodup := hunique.sublist (List.Sublist.map _ List.filter_sublist)
  exact List.count_eq_one_of_mem hnodup (mem_activeTokens.2 ⟨t, ht, huser, hactive, rfl⟩)

/-- **A bulk push reaches every active token** of its users, once, exactly if the module can be imported and they have
no more than 500. -/
theorem bulk_reaches_iff (hunique : (s.tokens.rows.map DeviceToken.token).Nodup) (importable : Bool) (py : Py)
    (users : List Pk) (notificationType title body : String) (data : Option (List (String × Json))) :
    BulkReaches importable py users notificationType title body data s ↔
      importable = true ∧ (activeTokens users s).length ≤ multicastLimit := by
  rcases importable with _ | _
  · constructor
    · intro hreaches
      exact absurd hreaches not_reached_by_import
    · rintro ⟨hparsed, -⟩
      exact absurd hparsed Bool.false_ne_true
  · constructor
    · intro hreaches
      refine ⟨rfl, ?_⟩
      by_contra hlimit
      exact not_reached (Nat.not_le.1 hlimit) hreaches
    · rintro ⟨-, hlimit⟩
      exact all_reached hunique hlimit

end

/-! ## A user with many tokens -/

def tokenOfUserOne (i : ℕ) : DeviceToken := ⟨(i : ℤ), 1, toString i, "android", true, 0, none⟩

/-- `n` tokens of user 1 -/
def manyTokens (n : ℕ) : TokenSite :=
  { TokenSite.init 0 with
    tokens := ⟨(List.range n).map tokenOfUserOne, by
      rw [List.map_map]
      exact List.Nodup.map (fun i j h => Int.ofNat_inj.1 h) List.nodup_range⟩ }

theorem activeTokens_many (n : ℕ) : (activeTokens [1] (manyTokens n)).length = n := by
  have hall : (manyTokens n).tokens.rows.filter (fun t => t.user ∈ ([1] : List Pk) ∧ t.isActive) =
      (manyTokens n).tokens.rows := by
    rw [List.filter_eq_self]
    intro t ht
    obtain ⟨i, -, rfl⟩ := List.mem_map.1 ht
    rfl
  rw [activeTokens, hall]
  simp [manyTokens]

/-- two tokens, were the module importable -/
theorem bulk_reaches_two :
    BulkReaches true demoPy [1] "new_job" "New job available!" "Move a sofa" none (manyTokens 2) :=
  (bulk_reaches_iff (by decide) true demoPy [1] "new_job" "New job available!" "Move a sofa" none).2
    ⟨rfl, by rw [activeTokens_many]; decide⟩

/-- one user with two tokens as the file stands, and one with 501 were it importable -/
theorem bulk_beyond_limit :
    ¬ BulkReaches false demoPy [1] "new_job" "New job available!" "Move a sofa" none (manyTokens 2) ∧
    ¬ BulkReaches true demoPy [1] "new_job" "New job available!" "Move a sofa" none (manyTokens 501) :=
  ⟨not_reached_by_import, not_reached (by rw [activeTokens_many]; decide)⟩

end GigMarketplace
