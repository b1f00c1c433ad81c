/-
`OTPService` of `apps/accounts/services.py` with `TelegramOTP`, `telegram_gateway.py` and the rate counter in the cache.

No transaction is opened, so every query, every cache operation, every reading of the clock and every request to the
gateway is a statement of its own (`Core/Threads.lean`). `OtpSite` is what the calls share: the table, the cache, the
clock, and the requests that have reached the gateway, in order. Nature advances the clock, which counts microseconds;
a cache key is there until its expiry time.

Telegram's answer to a sending request is part of the call (`SendReply`: any answer at all), its answer to a check is a
function of the request id and the code (`OtpEnv`). A phone number is the E.164 string of the PhoneNumberField. Left
out: the log messages, the caller's IP address (send_otp does not read it), and what a revocation answers (it is
ignored).
-/
import GigMarketplace.Core.Table
import GigMarketplace.Core.Threads
import GigMarketplace.Models

namespace GigMarketplace

open GigMarketplace.Core

/-! ## State -/

/-- in microseconds -/
def seconds (n : ℕ) : ℕ := n * 1000000

structure TelegramOTP where
  id : Pk
  phoneNumber : String
  requestId : String
  isUsed : Bool
  createdAt : ℕ
deriving DecidableEq, Repr

instance : Keyed TelegramOTP Pk := ⟨TelegramOTP.id, fun otp k => { otp with id := k }, fun _ _ => rfl, fun _ => rfl⟩

@[simp] theorem pk_otp (otp : TelegramOTP) : pk otp = otp.id := rfl

/-- `(timezone.now() - self.created_at).total_seconds() > 300` -/
def TelegramOTP.isExpired (otp : TelegramOTP) (now : ℕ) : Prop := seconds 300 < now - otp.createdAt

instance (otp : TelegramOTP) (now : ℕ) : Decidable (otp.isExpired now) := Nat.decLt _ _

/-- a request that has reached the gateway -/
inductive GatewayRequest where
  | send (phone : String) (time : ℕ)
  | check (requestId code : String)
  | revoke (requestId : String)
deriving DecidableEq, Repr

structure OtpSite where
  otps : Table TelegramOTP
  /-- a counter and the time it expires -/
  cache : String → Option (ℕ × ℕ)
  gateway : List GatewayRequest
  clock : ℕ

inductive OtpFailure where
  | rateLimit (msg : String)
  | otp (msg : String)
  | serviceUnavailable (msg : String)
  /-- one of the exceptions of `Runtime.lean` -/
  | exc (e : Exc)
deriving DecidableEq, Repr

abbrev OtpCall := Code OtpSite OtpFailure

/-! ## Telegram Gateway -/

/-- the answer to sendVerificationMessage -/
inductive SendReply where
  /-- httpx.RequestError -/
  | requestError
  /-- `ok` is false; the text of `error` -/
  | refused (error : Option String)
  | accepted (requestId : String)
  /-- not JSON, or without a field that is read: what reading it raises -/
  | unreadable (e : Exc)

/-- the answer to checkVerificationStatus -/
inductive CheckReply where
  | requestError
  | refused
  | status (status : Option String)
  | unreadable (e : Exc)

structure OtpEnv where
  /-- `hashlib.sha256(s.encode()).hexdigest()` -/
  sha256 : String → String
  check : String → String → CheckReply

namespace telegramGateway

def readSend : SendReply → Except OtpFailure String
  | .requestError => .error (.serviceUnavailable "Could not reach Telegram Gateway.")
  | .refused error => .error (.serviceUnavailable (error.getD "Telegram Gateway returned an error."))
  | .accepted requestId => .ok requestId
  | .unreadable e => .error (.exc e)

/-- the request has reached the gateway whatever it answers -/
def sendOtp (phone : String) (reply : SendReply) : OtpCall String :=
  .stmt (fun s => { s with gateway := s.gateway ++ [.send phone s.clock] }) fun _ => .ofExcept (readSend reply)

def readCheck : CheckReply → Except OtpFailure Bool
  | .requestError => .error (.serviceUnavailable "Could not reach Telegram Gateway.")
  | .refused => .ok false
  | .status status => .ok (status = some "code_valid")
  | .unreadable e => .error (.exc e)

def verifyOtp (E : OtpEnv) (requestId code : String) : OtpCall Bool :=
  .stmt (fun s => { s with gateway := s.gateway ++ [.check requestId code] })
    fun _ => .ofExcept (readCheck (E.check requestId code))

def revokeOtp (requestId : String) : OtpCall Unit :=
  .stmt (fun s => { s with gateway := s.gateway ++ [.revoke requestId] }) fun _ => .ret ()

end telegramGateway

/-! ## Cache and clock -/

/-- the counter under a key, unless it has expired -/
def OtpSite.counter (s : OtpSite) (key : String) : Option ℕ :=
  match s.cache key with
  | some (n, expiry) => if s.clock < expiry then some n else none
  | none => none

/-- `cache.get(key, 0)` -/
def Cache.get (key : String) : OtpCall ℕ := .query fun s => .ok ((s.counter key).getD 0)

/-- `cache.set(key, value, timeout=timeout)` -/
def Cache.set (key : String) (value : ℕ) (timeout : ℕ) : OtpCall Unit :=
  .act fun s => .ok ((), { s with cache := Function.update s.cache key (some (value, s.clock + timeout)) })

/-- `cache.incr(key)`: the expiry stays; a key that is not there raises -/
def Cache.incr (key : String) : OtpCall Unit :=
  .act fun s =>
    match s.cache key with
    | some (n, expiry) =>
      if s.clock < expiry then .ok ((), { s with cache := Function.update s.cache key (some (n + 1, expiry)) })
      else .error (.exc .valueError)
    | none => .error (.exc .valueError)

namespace Timezone

def now : OtpCall ℕ := .query fun s => .ok s.clock

end Timezone

/-! ## TelegramOTP -/

namespace TelegramOTP

/-- upper end of the length of `request_id` -/
def requestIdMax : ℕ := 255

/-- `filter(phone_number=phone_number, is_used=False)` -/
def unused (s : OtpSite) (phoneNumber : String) : List TelegramOTP :=
  s.otps.rows.filter fun otp => otp.phoneNumber = phoneNumber ∧ otp.isUsed = false

/-- `.latest("created_at")` of the unused ones; of several newest rows the database returns any (`pick`) -/
def latest (phoneNumber : String) (pick : ℕ) : OtpCall TelegramOTP :=
  .query fun s =>
    let found := unused s phoneNumber
    let newest := found.filter fun otp => found.all fun otp' => otp'.createdAt ≤ otp.createdAt
    match newest[pick % newest.length]? with
    | some otp => .ok otp
    | none => .error (.otp "OTP not found. Please request a new one.")

/-- one DELETE with the filter's conditions -/
def deleteUnused (phoneNumber : String) : OtpCall Unit :=
  .act fun s => .ok ((), { s with otps := s.otps.delete fun otp => otp.phoneNumber = phoneNumber ∧ otp.isUsed = false })

/-- the INSERT; `request_id` is unique -/
def insert (id : Pk) (phoneNumber requestId : String) (now : ℕ) : OtpCall Unit :=
  .act fun s =>
    if requestId.length ≤ requestIdMax ∧ s.otps.find id = none ∧ ∀ otp ∈ s.otps.rows, otp.requestId ≠ requestId then
      .ok ((), { s with otps := s.otps.insert ⟨id, phoneNumber, requestId, false, now⟩ })
    else .error (.exc .databaseError)

/-- `created_at` is read from the clock before the INSERT -/
def create (id : Pk) (phoneNumber requestId : String) : OtpCall Unit := do
  let now ← Timezone.now
  TelegramOTP.insert id phoneNumber requestId now

/-- `otp.is_used = True; otp.save(update_fields=["is_used"])` -/
def markUsed (otp : TelegramOTP) : OtpCall Unit :=
  .act fun s =>
    match s.otps.find otp.id with
    | none => .error (.exc .databaseError)
    | some _ => .ok ((), { s with otps := s.otps.update otp.id fun r => { r with isUsed := true } })

end TelegramOTP

/-! ## OTPService -/

/-- `get_otp_rate_limit_key` -/
def getOtpRateLimitKey (E : OtpEnv) (phoneNumber : String) : String :=
  "otp_rate:" ++ String.ofList ((E.sha256 phoneNumber).toList.take 16)

/-- what a call returns; for verify_otp, which returns True, the record it has loaded and the time it has checked -/
inductive OtpAnswer where
  | sent (expiresIn : ℕ) (phoneNumber message : String)
  | verified (otp : TelegramOTP) (checkedAt : ℕ)
deriving DecidableEq, Repr

namespace OTPService

def rateLimitCount : ℕ := 3

def rateLimitWindow : ℕ := seconds 600

def revokeAll : List TelegramOTP → OtpCall Unit
  | [] => return ()
  | otp :: otps => do
    telegramGateway.revokeOtp otp.requestId
    revokeAll otps

/-- revoke and delete the unused records for the phone -/
def revokeExisting (phoneNumber : String) : OtpCall Unit := do
  let existing ← Code.query fun s => .ok (TelegramOTP.unused s phoneNumber)
  revokeAll existing
  TelegramOTP.deleteUnused phoneNumber

def countSend (key : String) (sendCount : ℕ) : OtpCall Unit :=
  if sendCount = 0 then Cache.set key 1 rateLimitWindow else Cache.incr key

/-- `id` is the value of the table's sequence -/
def sendOtp (E : OtpEnv) (phoneNumber : String) (reply : SendReply) (id : Pk) : OtpCall OtpAnswer := do
  let sendCount ← Cache.get (getOtpRateLimitKey E phoneNumber)
  Code.raiseIf (rateLimitCount ≤ sendCount) (.rateLimit "Too many OTP requests. Please wait before trying again.")
  revokeExisting phoneNumber
  let requestId ← telegramGateway.sendOtp phoneNumber reply
  TelegramOTP.create id phoneNumber requestId
  countSend (getOtpRateLimitKey E phoneNumber) sendCount
  return .sent 300 phoneNumber "OTP sent via Telegram"

def verifyOtp (E : OtpEnv) (phoneNumber code : String) (pick : ℕ) : OtpCall OtpAnswer := do
  let otp ← TelegramOTP.latest phoneNumber pick
  let now ← Timezone.now
  Code.raiseIf (otp.isExpired now) (.otp "OTP expired. Please request a new one.")
  let valid ← telegramGateway.verifyOtp E otp.requestId code
  Code.raiseIf (¬ valid) (.otp "Invalid code.")
  otp.markUsed
  return .verified otp now

end OTPService

/-! ## Statements -/

section Statements

variable {R : OtpSite → OtpSite → Prop}

/-- a relation that does not look at the table -/
theorem each_deleteUnused (phoneNumber : String) (hrefl : ∀ s, R s s) (hotps : ∀ s otps, R s { s with otps }) :
    (TelegramOTP.deleteUnused phoneNumber).Each R := by
  apply Code.each_act hrefl
  intro s x h
  cases h
  exact hotps s _

theorem each_insert (id : Pk) (phoneNumber requestId : String) (now : ℕ) (hrefl : ∀ s, R s s)
    (hotps : ∀ s otps, R s { s with otps }) : (TelegramOTP.insert id phoneNumber requestId now).Each R := by
  apply Code.each_act hrefl
  intro s x h
  split_ifs at h
  cases h
  exact hotps s _

theorem each_revokeExisting (phoneNumber : String) (hrefl : ∀ s, R s s)
    (hrevoke : ∀ s requestId, R s { s with gateway := s.gateway ++ [.revoke requestId] })
    (hdelete : (TelegramOTP.deleteUnused phoneNumber).Each R) : (OTPService.revokeExisting phoneNumber).Each R := by
  have hall : ∀ otps, (OTPService.revokeAll otps).Each R := by
    intro otps
    induction otps with
    | nil => trivial
    | cons otp otps ih => exact Code.each_bind (fun s => ⟨hrevoke s otp.requestId, trivial⟩) fun _ => ih
  refine Code.each_bind (Code.each_query hrefl _) fun otps => ?_
  exact Code.each_bind (hall otps) fun _ => hdelete

/-- a counter is counted under its own key -/
theorem each_countSend (key : String) (n : ℕ) (hrefl : ∀ s, R s s)
    (hcache : ∀ s entry, R s { s with cache := Function.update s.cache key entry }) :
    (OTPService.countSend key n).Each R := by
  unfold OTPService.countSend
  split_ifs
  · apply Code.each_act hrefl
    intro s x h
    cases h
    exact hcache s _
  · apply Code.each_act hrefl
    intro s x h
    split at h
    · split_ifs at h
      cases h
      exact hcache s _
    · cases h

/-- what a relation has to allow for all statements of send_otp to be in it -/
theorem each_sendOtp (E : OtpEnv) (phoneNumber : String) (reply : SendReply) (id : Pk) (hrefl : ∀ s, R s s)
    (hrevoke : ∀ s requestId, R s { s with gateway := s.gateway ++ [.revoke requestId] })
    (hsend : ∀ s, R s { s with gateway := s.gateway ++ [.send phoneNumber s.clock] })
    (hdelete : (TelegramOTP.deleteUnused phoneNumber).Each R)
    (hinsert : ∀ requestId now, (TelegramOTP.insert id phoneNumber requestId now).Each R)
    (hcache : ∀ s entry,
      R s { s with cache := Function.update s.cache (getOtpRateLimitKey E phoneNumber) entry }) :
    (OTPService.sendOtp E phoneNumber reply id).Each R := by
  refine Code.each_bind (Code.each_query hrefl _) fun n => ?_
  refine Code.each_bind (Code.each_raiseIf _ _) fun _ => ?_
  refine Code.each_bind (each_revokeExisting phoneNumber hrefl hrevoke hdelete) fun _ => ?_
  refine Code.each_bind (fun s => ⟨hsend s, Code.each_ofExcept _⟩) fun requestId => ?_
  refine Code.each_bind (Code.each_bind (Code.each_query hrefl _) fun now => hinsert requestId now) fun _ => ?_
  exact Code.each_bind (each_countSend _ n hrefl hcache) fun _ => trivial

/-- the record that verify_otp selects -/
def TelegramOTP.selected (s : OtpSite) (phoneNumber : String) (pick : ℕ) : Option TelegramOTP :=
  let found := TelegramOTP.unused s phoneNumber
  let newest := found.filter fun otp => found.all fun otp' => otp'.createdAt ≤ otp.createdAt
  newest[pick % newest.length]?

theorem latest_eq (phoneNumber : String) (pick : ℕ) :
    TelegramOTP.latest phoneNumber pick = .query fun s =>
      match TelegramOTP.selected s phoneNumber pick with
      | some otp => .ok otp
      | none => .error (.otp "OTP not found. Please request a new one.") := rfl

end Statements

/-! ## Calls -/

inductive OtpOp where
  | sendOtp (phoneNumber : String) (reply : SendReply) (id : Pk)
  | verifyOtp (phoneNumber code : String) (pick : ℕ)

def OtpOp.code (E : OtpEnv) : OtpOp → OtpCall OtpAnswer
  | .sendOtp phoneNumber reply id => OTPService.sendOtp E phoneNumber reply id
  | .verifyOtp phoneNumber code pick => OTPService.verifyOtp E phoneNumber code pick

/-- time passes -/
def OtpSite.tick (d : ℕ) (s : OtpSite) : OtpSite := { s with clock := s.clock + d }

abbrev OtpPool := Pool OtpSite OtpFailure OtpAnswer OtpOp

abbrev OtpEntry := Entry OtpSite OtpFailure OtpAnswer OtpOp

abbrev OtpEvent := PoolEvent OtpOp ℕ

def otpRun (E : OtpEnv) (s : OtpSite) (evs : List OtpEvent) : OtpPool :=
  (Pool.init s).run (OtpOp.code E) OtpSite.tick evs

def demoPhone : String := "+998901234567"

/-- the gateway knows one message and its code; `sha256` knows the digest of one phone number -/
def demoGateway : OtpEnv where
  sha256 s := if s = demoPhone then "b0ff57edaf3b57a5e0923896c2aeb095fc51e0a61d586f5219e70ebdfdeb6f7c" else ""
  check requestId code := .status (if requestId = "req-1" ∧ code = "123456" then some "code_valid" else none)

end GigMarketplace
