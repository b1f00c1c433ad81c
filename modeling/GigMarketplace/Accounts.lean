/-
`apps/accounts`: the row of a user and the operations on it, of `models.py`, `services.py`, `serializers.py` and
`views.py`.

None of this code runs in a transaction, so every query is a statement of its own (`Core/Threads.lean`); an object keeps
the columns it was loaded with until it is saved. A `save(update_fields=[...])` writes the named columns of the object,
a plain `save()` all of them. The services of `System.lean` run in transactions and are one statement each here.

`Site` is the database with the full rows of the users beside the tables of `Models.lean`; of these, `users` holds the
columns that the money code reads. Ratings are decimals: Python's default context rounds every result to 28 digits,
half to even, and the column numeric(3, 2) rounds half away from zero. Left out: passwords beyond the stored column,
groups, device tokens, and the file behind an avatar's name.
-/
import GigMarketplace.Core.Threads
import GigMarketplace.System

namespace GigMarketplace

open GigMarketplace.Core

/-! ## Decimals -/

/-- the nearest integer, halves to the even one -/
def roundHalfEven (x : ℚ) : ℤ :=
  let rest := x - ⌊x⌋
  if rest < 1 / 2 then ⌊x⌋
  else if 1 / 2 < rest then ⌊x⌋ + 1
  else if ⌊x⌋ % 2 = 0 then ⌊x⌋ else ⌊x⌋ + 1

/-- the nearest integer, halves away from zero -/
def roundHalfAway (x : ℚ) : ℤ := if 0 ≤ x then ⌊x + 1 / 2⌋ else -⌊-x + 1 / 2⌋

def decimalDigits (n : ℕ) : ℕ := (Nat.toDigits 10 n).length

/-- 10 to the power `e` -/
def tenPow : ℤ → ℚ
  | .ofNat n => ((10 ^ n : ℕ) : ℚ)
  | .negSucc n => 1 / ((10 ^ (n + 1) : ℕ) : ℚ)

/-- the exponent of the first digit of `x ≠ 0` -/
def magnitude (x : ℚ) : ℤ :=
  let e : ℤ := (decimalDigits x.num.natAbs : ℤ) - decimalDigits x.den
  if tenPow e ≤ |x| then e else e - 1

/-- what the default decimal context makes of an exact result: 28 significant digits -/
def decimalContext (x : ℚ) : ℚ :=
  if x = 0 then 0 else
    let ulp := tenPow (magnitude x - 27)
    roundHalfEven (x / ulp) * ulp

/-- what a column numeric(3, 2) stores -/
def numericColumn (x : ℚ) : ℚ := roundHalfAway (x * 100) / 100

/-! ## Rows -/

/-- a row of accounts_users -/
structure Account where
  id : Pk
  password : String
  lastLogin : Option Time
  isSuperuser : Bool
  phoneNumber : String
  role : String
  name : String
  avatar : Option String
  bio : String
  rating : ℚ
  ratingCount : ℕ
  isActive : Bool
  isStaff : Bool
  isBlocked : Bool
  blockReason : String
  isProfileComplete : Bool
  createdAt : Time
  updatedAt : Time
  lastSeen : Option Time
deriving DecidableEq, Repr

instance : Keyed Account Pk := ⟨Account.id, fun a k => { a with id := k }, fun _ _ => rfl, fun _ => rfl⟩

@[simp] theorem pk_account (a : Account) : pk a = a.id := rfl

/-- the row that `get_or_create` inserts: the model's defaults -/
def newAccount (id : Pk) (phoneNumber role : String) (now : Time) : Account :=
  { id, password := "", lastLogin := none, isSuperuser := false, phoneNumber, role, name := "", avatar := none,
    bio := "", rating := 0, ratingCount := 0, isActive := true, isStaff := false, isBlocked := false,
    blockReason := "", isProfileComplete := false, createdAt := now, updatedAt := now, lastSeen := none }

structure Site where
  accounts : Table Account
  db : DB

/-- what a call of this app raises -/
inductive Failure where
  /-- one of the exceptions of `Runtime.lean` -/
  | exc (e : Exc)
  | unauthorized (msg : String)
  | authenticationFailed (msg : String)
  | permissionDenied (msg : String)
  | http404
  /-- Django's ValidationError: a value that its field cannot convert -/
  | fieldError
deriving DecidableEq, Repr

/-- a call's code -/
abbrev Call := Code Site Failure

/-- `phone_number` is unique -/
def Account.byPhone (s : Site) (phoneNumber : String) : Option Account :=
  s.accounts.rows.find? fun a => a.phoneNumber = phoneNumber

/-- UPDATE of columns of one row, by an object loaded before; saving to a row that is gone raises -/
def Account.updateColumns (id : Pk) (f : Account → Account) : Call Unit :=
  .act fun s =>
    match s.accounts.find id with
    | none => .error (.exc .databaseError)
    | some _ => .ok ((), { s with accounts := s.accounts.update id f })

/-! ## Ratings -/

/-- upper end of `rating_count`, a PositiveIntegerField -/
def ratingCountMax : ℕ := 2147483647

/-- the average `update_rating` computes, as the column stores it -/
def averaged (rating : ℚ) (ratingCount : ℕ) (newRating : ℚ) : ℚ :=
  let total := decimalContext (decimalContext (rating * ratingCount) + newRating)
  numericColumn (decimalContext (total / (ratingCount + 1 : ℕ)))

/-- `self.save(update_fields=["rating", "rating_count"])` after the new average; `newRating` is none for an infinity or
a NaN, which the field refuses -/
def Account.updateRating (a : Account) (newRating : Option ℚ) : Call Unit :=
  match newRating with
  | none => .raise .fieldError
  | some x =>
    .act fun s =>
      match s.accounts.find a.id with
      | none => .error (.exc .databaseError)
      | some _ =>
        if |averaged a.rating a.ratingCount x| < 10 ∧ a.ratingCount + 1 ≤ ratingCountMax then
          .ok ((), { s with accounts := s.accounts.update a.id fun r =>
            { r with rating := averaged a.rating a.ratingCount x, ratingCount := a.ratingCount + 1 } })
        else .error (.exc .databaseError)

/-- `Job.objects.get(id=job_id, status=COMPLETED)` -/
def Job.getCompleted (E : Env) (jobId : String) : Call Job :=
  .query fun s =>
    match E.py.int jobId with
    | none => .error (.exc .valueError)
    | some i =>
      match s.db.jobs.find i with
      | none => .error (.exc (.notFound "Job not found or not completed."))
      | some j =>
        if j.status = .completed then .ok j else .error (.exc (.notFound "Job not found or not completed."))

/-- `rating` is the value of `Decimal(str(rating))` -/
def UserService.rateUser (E : Env) (rater : Pk) (target : Account) (rating : Option ℚ) (jobId : String) :
    Call Unit := do
  let job ← Job.getCompleted E jobId
  Code.raiseIf (¬ (rater = job.employer ∨ job.worker = some rater))
    (.exc (.forbidden "You were not involved in this job."))
  Code.raiseIf (¬ (target.id = job.employer ∨ job.worker = some target.id))
    (.exc (.forbidden "Target user was not involved in this job."))
  Code.raiseIf (rater = target.id) (.exc (.validation "You cannot rate yourself."))
  target.updateRating rating

/-- `get_object_or_404(User, id=user_id, is_active=True)` -/
def Account.getActiveOr404 (id : Pk) : Call Account :=
  .query fun s =>
    match s.accounts.find id with
    | none => .error .http404
    | some a => if a.isActive then .ok a else .error .http404

/-! ## Profiles -/

/-- `validated_data` of UpdateProfileSerializer: the fields that the request carries -/
structure ProfileData where
  name : Option String
  avatar : Option (Option String)
  bio : Option String
  name_ok : ∀ n, name = some n → 2 ≤ n.length ∧ n.length ≤ 150
  bio_ok : ∀ b, bio = some b → b.length ≤ 500

/-- the user of a request: JWTAuthentication loads the row, IsActiveUser looks at it -/
def Account.authenticate (id : Pk) : Call Account := do
  let user ← Code.query fun s =>
    match s.accounts.find id with
    | none => .error (Failure.authenticationFailed "User not found")
    | some a => if a.isActive then .ok a else .error (.authenticationFailed "User is inactive")
  Code.raiseIf (¬ (user.isActive ∧ ¬ user.isBlocked)) (.permissionDenied "Your account has been suspended.")
  return user

/-- the attributes `update` sets -/
def Account.withProfile (a : Account) (data : ProfileData) : Account :=
  let a := { a with name := data.name.getD a.name, avatar := data.avatar.getD a.avatar, bio := data.bio.getD a.bio }
  if a.name ≠ "" then { a with isProfileComplete := true } else a

/-- `instance.save()`: every column of the object, `updated_at` the current time; a missing row is inserted -/
def Account.save (a : Account) (now : Time) : Call Unit :=
  .act fun s =>
    match s.accounts.find a.id with
    | some _ => .ok ((), { s with accounts := s.accounts.update a.id fun _ => { a with updatedAt := now } })
    | none =>
      match Account.byPhone s a.phoneNumber with
      | some _ => .error (.exc .databaseError)
      | none => .ok ((), { s with accounts := s.accounts.insert { a with updatedAt := now } })

def UpdateProfileSerializer.update (user : Account) (data : ProfileData) (now : Time) : Call Account := do
  let user := user.withProfile data
  user.save now
  return { user with updatedAt := now }

/-! ## Blocking and login -/

def Account.get (id : Pk) : Call Account :=
  .query fun s =>
    match s.accounts.find id with
    | none => .error (.exc (.doesNotExist "User"))
    | some a => .ok a

def UserService.blockUser (user : Account) (reason : String) : Call Unit :=
  Account.updateColumns user.id fun r => { r with isBlocked := true, blockReason := reason, isActive := false }

def UserService.unblockUser (user : Account) : Call Unit :=
  Account.updateColumns user.id fun r => { r with isBlocked := false, blockReason := "", isActive := true }

/-- upper end of the length of `role` -/
def roleMax : ℕ := 10

/-- the INSERT of `get_or_create`, in a transaction with the wallet that the post_save signal adds; when another call
has inserted the phone number first, the row is fetched instead -/
def Account.create (id : Pk) (phoneNumber role : String) (now : Time) : Call (Account × Bool) :=
  .act fun s =>
    match Account.byPhone s phoneNumber with
    | some a => .ok ((a, false), s)
    | none =>
      if role.length ≤ roleMax ∧ s.accounts.find id = none then
        .ok ((newAccount id phoneNumber role now, true),
          { accounts := s.accounts.insert (newAccount id phoneNumber role now)
            db := { s.db with
              users := s.db.users.insert ⟨id, role⟩
              wallets := s.db.wallets.insert ⟨id, 0, 0, 0, 0⟩ } })
      else .error (.exc .databaseError)

def Account.getOrCreate (id : Pk) (phoneNumber role : String) (now : Time) : Call (Account × Bool) := do
  let found ← Code.query fun s => .ok (Account.byPhone s phoneNumber)
  match found with
  | some user => return (user, false)
  | none => Account.create id phoneNumber role now

/-- `id` is the value of the table's sequence, for a new user -/
def AuthService.authenticateOrCreate (id : Pk) (phoneNumber role : String) (now : Time) : Call (Account × Bool) := do
  let (user, created) ← Account.getOrCreate id phoneNumber role now
  Code.raiseIf (¬ created ∧ user.isBlocked) (.unauthorized "Your account has been suspended.")
  Code.raiseIf (¬ created ∧ ¬ user.isActive) (.unauthorized "Your account is inactive.")
  Account.updateColumns user.id fun r => { r with lastSeen := some now }
  return ({ user with lastSeen := some now }, created)

/-! ## Calls -/

inductive AccountOp where
  /-- POST /users/{id}/rate/ by `rater`: the view loads the target -/
  | rateUser (rater target : Pk) (rating : Option ℚ) (jobId : String)
  /-- PATCH /users/me/ -/
  | updateProfile (user : Pk) (data : ProfileData) (now : Time)
  | blockUser (user : Pk) (reason : String)
  | unblockUser (user : Pk)
  | authenticateOrCreate (id : Pk) (phoneNumber role : String) (now : Time)
  /-- a transaction of JobService or DepositService -/
  | service (op : Op)

/-- one transaction -/
def serviceCall (E : Env) (op : Op) : Call Unit :=
  .act fun s =>
    match exec store (op.prog E) s.db with
    | .ok x => .ok ((), { s with db := x.2 })
    | .error e => .error (.exc e)

def AccountOp.code (E : Env) : AccountOp → Call Unit
  | .rateUser rater target rating jobId => do
    let user ← Account.getActiveOr404 target
    UserService.rateUser E rater user rating jobId
  | .updateProfile user data now => do
    let user ← Account.authenticate user
    let _ ← UpdateProfileSerializer.update user data now
    return ()
  | .blockUser user reason => do
    let user ← Account.get user
    UserService.blockUser user reason
  | .unblockUser user => do
    let user ← Account.get user
    UserService.unblockUser user
  | .authenticateOrCreate id phoneNumber role now => do
    let _ ← AuthService.authenticateOrCreate id phoneNumber role now
    return ()
  | .service op => serviceCall E op

abbrev AccountPool := Pool Site Failure Unit AccountOp

abbrev AccountEntry := Entry Site Failure Unit AccountOp

abbrev AccountEvent := PoolEvent AccountOp Empty

def accountRun (E : Env) (s : Site) (evs : List AccountEvent) : AccountPool :=
  (Pool.init s).run (AccountOp.code E) (fun n _ => n.elim) evs

/-- the rows of the small market's two users -/
def demoAccounts : Table Account :=
  ⟨[newAccount 1 "+998901234567" "employer" 0, newAccount 2 "+998907654321" "worker" 0], by decide⟩

end GigMarketplace
