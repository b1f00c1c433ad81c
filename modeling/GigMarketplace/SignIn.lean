/-
The whole site: `SendOTPView` and `VerifyOTPView` of `apps/accounts/views.py` as they run, over the records of the
passwords and the tables of the users together, beside the requests of the market.

A sign-in is a verification (`Otp.lean`) and then `authenticate_or_create` (`Roles.lean`), each statement by statement on
its own part of the state (`Core/Zoom.lean`); between any two statements of a request there may be others of any other
request: further codes for the same phone number, sign-ins that create the same user, edits, blocks, ratings, and the
requests of `Requests.lean`. The tokens of a session are a function of its user and the clock, and are not modelled; the
session holds what they are issued for and what the answer shows of the wallet.
-/
import GigMarketplace.Core.Zoom
import GigMarketplace.OtpRecords
import GigMarketplace.Requests

namespace GigMarketplace

open GigMarketplace.Core

/-! ## State -/

structure AuthSite where
  otp : OtpSite
  site : Site

def otpPart : Part AuthSite OtpSite := ⟨AuthSite.otp, fun s t => { t with otp := s }, fun _ _ => rfl⟩

def sitePart : Part AuthSite Site := ⟨AuthSite.site, fun s t => { t with site := s }, fun _ _ => rfl⟩

inductive AuthFailure where
  /-- a serializer's ValidationError -/
  | invalid
  | otp (e : OtpFailure)
  | account (e : Failure)
deriving DecidableEq, Repr

abbrev AuthCall := Code AuthSite AuthFailure

structure AuthEnv where
  base : Env
  gateway : OtpEnv
  rest : RestEnv
  pages : PageSettings
  search : SearchEnv

inductive AuthAnswer where
  | sent (answer : OtpAnswer)
  /-- the user of `generate_tokens`, `is_new_user`, and the balance of UserProfileSerializer -/
  | session (user : Account) (isNew : Bool) (balance : ℤ)
  | market (answer : MarketAnswer)
  | done

/-! ## The views -/

/-- SendOTPSerializer: the phone number; the role may be left out, and is not used -/
def SendOTPSerializer.validate (R : RestEnv) : Json → Option String
  | .obj fields => do
    let phoneNumber ← (getField fields "phone_number").bind R.phoneNumber
    let _ ← choiceField ["employer", "worker"] ((getField fields "role").getD (.str "worker"))
    return phoneNumber
  | _ => none

/-- `is_valid(raise_exception=True)` -/
def validated {A : Type} (data : Option A) : AuthCall A := .ofExcept (data.elim (.error .invalid) .ok)

namespace Auth

/-- `reply` is what Telegram answers, `id` the value of the table's sequence -/
def SendOTPView.post (X : AuthEnv) (data : Json) (reply : SendReply) (id : Pk) : AuthCall AuthAnswer := do
  let phoneNumber ← validated (SendOTPSerializer.validate X.rest data)
  let answer ← (OTPService.sendOtp X.gateway phoneNumber reply id).zoom otpPart .otp
  return .sent answer

/-- `obj.wallet.balance`, and 0 without a wallet. That of a new user is not read again: `obj.wallet` is the Wallet that
the receiver of `post_save` has created with `user=instance`. -/
def UserProfileSerializer.getBalance (user : Pk) (isNew : Bool) : AuthCall ℤ :=
  if isNew then return (⟨user, 0, 0, 0, 0⟩ : Wallet).balance
  else .query fun t => .ok ((t.site.db.wallets.find user).elim 0 Wallet.balance)

def VerifyOTPView.post (X : AuthEnv) (request : VerifyRequest) (pick : ℕ) : AuthCall AuthAnswer := do
  let (phoneNumber, code) ← validated (VerifyOTPSerializer.validate X.rest request.data)
  let _ ← (OTPService.verifyOtp X.gateway phoneNumber code pick).zoom otpPart .otp
  let role ← Code.ofExcept ((requestedRole request.data).mapError fun e => .account (.exc e))
  let (user, isNew) ←
    (AuthService.authenticateOrCreateRaw X.base request.id phoneNumber role request.now).zoom sitePart .account
  let balance ← UserProfileSerializer.getBalance user.id isNew
  return .session user isNew balance

end Auth

/-! ## Calls -/

inductive AuthOp where
  | sendOtp (data : Json) (reply : SendReply) (id : Pk)
  | verifyOtp (request : VerifyRequest) (pick : ℕ)
  | edit (op : AccountOp) (h : op.isEdit = true)
  | market (r : MarketRequest)

def AuthOp.code (X : AuthEnv) : AuthOp → AuthCall AuthAnswer
  | .sendOtp data reply id => Auth.SendOTPView.post X data reply id
  | .verifyOtp request pick => Auth.VerifyOTPView.post X request pick
  | .edit op _ => do
    let _ ← (op.code X.base).zoom sitePart .account
    return .done
  | .market r => do
    let answer ← (r.code X.base X.pages X.search).zoom sitePart .account
    return .market answer

def AuthSite.tick (d : ℕ) (t : AuthSite) : AuthSite := { t with otp := t.otp.tick d }

abbrev AuthPool := Pool AuthSite AuthFailure AuthAnswer AuthOp

abbrev AuthEntry := Entry AuthSite AuthFailure AuthAnswer AuthOp

abbrev AuthEvent := PoolEvent AuthOp ℕ

/-- the rows that the money code sees -/
def userRows (accounts : Table Account) : Table User :=
  ⟨accounts.rows.map fun a => ⟨a.id, a.role⟩, by rw [List.map_map]; exact accounts.nodup⟩

/-- users whose money has not moved yet -/
def AuthSite.opened (accounts : Table Account) (otp : OtpSite) : AuthSite := ⟨otp, accounts, init (userRows accounts)⟩

def authRun (X : AuthEnv) (accounts : Table Account) (otp : OtpSite) (evs : List AuthEvent) : AuthPool :=
  (Pool.init (AuthSite.opened accounts otp)).run (AuthOp.code X) AuthSite.tick evs

/-! ## Where records come from -/

/-- the record was there before, or the gateway has answered a sending call with it -/
def Issued (X : AuthEnv) (s : OtpSite) (evs : List AuthEvent) (id : Pk) (phoneNumber requestId : String) : Prop :=
  (∃ otp ∈ s.otps.rows, otp.id = id ∧ otp.phoneNumber = phoneNumber ∧ otp.requestId = requestId) ∨
    ∃ c data, .start c (.sendOtp data (.accepted requestId) id) ∈ evs ∧
      SendOTPSerializer.validate X.rest data = some phoneNumber

/-- the value of the sequence that a sending call gets -/
def sequenceValue : AuthEvent → Option Pk
  | .start _ (.sendOtp _ _ id) => some id
  | _ => none

/-- the sequence gives every value once -/
def SequenceOnce (s : OtpSite) (evs : List AuthEvent) : Prop :=
  (s.otps.rows.map TelegramOTP.id ++ evs.filterMap sequenceValue).Nodup

end GigMarketplace
