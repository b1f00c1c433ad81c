/-
Roles: `VerifyOTPView.post` of `apps/accounts/views.py`, whose new users get the role that the request's body names.

The serializer checks the phone number and the code; the role is read from the body beside it and goes into the INSERT
of `get_or_create`, which checks no choices: a text of at most 10 characters is stored as it is. The calls here are
requests whose verify_otp has returned; one whose verify_otp raises touches no user.

Results, for every interleaving of requests:
- `authenticateOrCreateRaw_str`: for the roles that the column takes the call is the one of `Accounts.lean`;
- `roleStep_code`: no statement changes a user's role, and a new user has the role of the request;
- `roles_iff`: every role is employer or worker exactly if every request that creates a user names one of these or
  none, and the users there were keep their roles;
- `role_admin`: a request that creates a user with the role admin.
-/
import GigMarketplace.Profiles
import GigMarketplace.Rest

namespace GigMarketplace

open GigMarketplace.Core

/-! ## The request -/

/-- what the column `role` gets of a value: None as NULL, anything else as its text -/
def roleColumn (py : Py) : Json → Option String
  | .null => none
  | v => some (v.format py)

/-- `create(**params)` of `get_or_create` for a value that is not checked: NULL breaks a constraint, so the row is
looked up once more; a null character and a text over the column's length are refused -/
def Account.createRaw (E : Env) (id : Pk) (phoneNumber : String) (role : Json) (now : Time) : Call (Account × Bool) :=
  match roleColumn E.py role with
  | none =>
    .query fun s =>
      match Account.byPhone s phoneNumber with
      | some a => .ok (a, false)
      | none => .error (.exc .databaseError)
  | some text =>
    if hasNull text then .raise (.exc .valueError)
    else if roleMax < text.length then .raise (.exc .databaseError)
    else Account.create id phoneNumber text now

def Account.getOrCreateRaw (E : Env) (id : Pk) (phoneNumber : String) (role : Json) (now : Time) :
    Call (Account × Bool) := do
  let found ← Code.query fun s => .ok (Account.byPhone s phoneNumber)
  match found with
  | some user => return (user, false)
  | none => Account.createRaw E id phoneNumber role now

/-- authenticate_or_create with the role as it comes -/
def AuthService.authenticateOrCreateRaw (E : Env) (id : Pk) (phoneNumber : String) (role : Json) (now : Time) :
    Call (Account × Bool) := do
  let (user, created) ← Account.getOrCreateRaw E id phoneNumber role now
  Code.raiseIf (¬ created ∧ user.isBlocked) (.unauthorized "Your account has been suspended.")
  Code.raiseIf (¬ created ∧ ¬ user.isActive) (.unauthorized "Your account is inactive.")
  Account.updateColumns user.id fun r => { r with lastSeen := some now }
  return ({ user with lastSeen := some now }, created)

/-- a role that the column takes -/
theorem authenticateOrCreateRaw_str (E : Env) (id : Pk) (phoneNumber role : String) (now : Time)
    (hnull : hasNull role = false) (hmax : role.length ≤ roleMax) :
    AuthService.authenticateOrCreateRaw E id phoneNumber (.str role) now =
      AuthService.authenticateOrCreate id phoneNumber role now := by
  have hcreate : Account.createRaw E id phoneNumber (.str role) now = Account.create id phoneNumber role now := by
    simp [Account.createRaw, roleColumn, Json.format, hnull, hmax]
  have hget : Account.getOrCreateRaw E id phoneNumber (.str role) now =
      Account.getOrCreate id phoneNumber role now := by
    unfold Account.getOrCreateRaw
    rw [hcreate]
    rfl
  unfold AuthService.authenticateOrCreateRaw
  rw [hget]
  rfl

/-- VerifyOTPSerializer: the phone number and the code -/
def VerifyOTPSerializer.validate (R : RestEnv) : Json → Option (String × String)
  | .obj fields => do
    let phoneNumber ← (getField fields "phone_number").bind R.phoneNumber
    let code ← (getField fields "code").bind (charField 4 10)
    if R.isDigit code then some (phoneNumber, code) else none
  | _ => none

/-- `request.data.get("role", "worker")` -/
def requestedRole (data : Json) : Except Exc Json := do
  let role ← data.getKey "role"
  return role.getD (.str "worker")

/-- a request whose verify_otp has returned; `id` is the value of the table's sequence, for a new user -/
structure VerifyRequest where
  data : Json
  id : Pk
  now : Time

def VerifyOTPView.post (E : Env) (R : RestEnv) (request : VerifyRequest) : Call (Account × Bool) := do
  let validated ← Code.ofExcept ((VerifyOTPSerializer.validate R request.data).elim (.error .fieldError) .ok)
  let role ← Code.ofExcept ((requestedRole request.data).mapError .exc)
  AuthService.authenticateOrCreateRaw E request.id validated.1 role request.now

abbrev LoginEntry := Entry Site Failure (Account × Bool) VerifyRequest

abbrev LoginEvent := PoolEvent VerifyRequest Empty

def loginRun (E : Env) (R : RestEnv) (s : Site) (evs : List LoginEvent) :
    Pool Site Failure (Account × Bool) VerifyRequest :=
  (Pool.init s).run (VerifyOTPView.post E R) (fun n _ => n.elim) evs

/-! ## Roles -/

def validRole (role : String) : Prop := role = "employer" ∨ role = "worker"

instance (role : String) : Decidable (validRole role) := instDecidableOr

def RolesValid (s : Site) : Prop := ∀ a ∈ s.accounts.rows, validRole a.role

/-- the request names employer or worker, or no role -/
def NamesValidRole (E : Env) (request : VerifyRequest) : Prop :=
  ∃ role text, requestedRole request.data = .ok role ∧ roleColumn E.py role = some text ∧ validRole text

/-- the entry's statement has inserted a user -/
def CreatesUser (e : LoginEntry) : Prop :=
  ∃ id, e.before.accounts.find id = none ∧ (e.after.accounts.find id).isSome

/-- the users and their roles are the same -/
def SameRoles (s s' : Site) : Prop :=
  ∀ id, (s'.accounts.find id).map Account.role = (s.accounts.find id).map Account.role

theorem SameRoles.refl (s : Site) : SameRoles s s := fun _ => rfl

/-- what a statement does to the roles; a new user gets one of `allowed` -/
inductive RoleStep (allowed : String → Prop) (s s' : Site) : Prop where
  | same (h : SameRoles s s')
  | created (a : Account) (hnew : s.accounts.find a.id = none) (h : s'.accounts = s.accounts.insert a)
      (hrole : allowed a.role)

section Steps

variable {allowed : String → Prop}

theorem RoleStep.refl (s : Site) : RoleStep allowed s s := .same (SameRoles.refl s)

theorem roleStep_updateColumns (id : Pk) (f : Account → Account) (hf : ∀ a, (f a).role = a.role)
    (hid : ∀ a, (f a).id = a.id) : (Account.updateColumns id f).Each (RoleStep allowed) := by
  refine Code.each_act RoleStep.refl fun s x h => ?_
  split at h
  · cases h
  · rename_i a hfind
    cases h
    refine .same fun id' => ?_
    by_cases hne : id = id'
    · subst hne
      simp only [Table.find_update_self hfind (hid a), hfind, Option.map_some, hf]
    · simp only [Table.find_update_ne hne]

theorem roleStep_create (id : Pk) (phoneNumber role : String) (now : Time) (hrole : allowed role) :
    (Account.create id phoneNumber role now).Each (RoleStep allowed) := by
  refine Code.each_act RoleStep.refl fun s x h => ?_
  split at h
  · cases h
    exact RoleStep.refl s
  · split_ifs at h with hnew
    cases h
    exact .created (newAccount id phoneNumber role now) hnew.2 rfl hrole

theorem roleStep_createRaw (E : Env) (id : Pk) (phoneNumber : String) (role : Json) (now : Time)
    (hrole : ∀ text, roleColumn E.py role = some text → allowed text) :
    (Account.createRaw E id phoneNumber role now).Each (RoleStep allowed) := by
  unfold Account.createRaw
  cases hcolumn : roleColumn E.py role with
  | none => exact Code.each_query RoleStep.refl _
  | some text =>
    dsimp only
    split_ifs
    · trivial
    · trivial
    · exact roleStep_create id phoneNumber text now (hrole text hcolumn)

/-- **What a request does to the roles**: a new user gets the one that it names. -/
theorem roleStep_code (E : Env) (R : RestEnv) (request : VerifyRequest) :
    (VerifyOTPView.post E R request).Each
      (RoleStep fun text => ∃ role, requestedRole request.data = .ok role ∧ roleColumn E.py role = some text) := by
  refine Code.each_bind (Code.each_ofExcept _) fun validated => ?_
  cases hrole : requestedRole request.data with
  | error e => trivial
  | ok role =>
    change (AuthService.authenticateOrCreateRaw E request.id validated.1 role request.now).Each _
    refine Code.each_bind (Code.each_bind (Code.each_query RoleStep.refl _) fun found => ?_) fun user => ?_
    · cases found with
      | some user => trivial
      | none => exact roleStep_createRaw E _ _ role _ fun text hcolumn => ⟨role, rfl, hcolumn⟩
    · refine Code.each_bind (Code.each_raiseIf _ _) fun _ => ?_
      refine Code.each_bind (Code.each_raiseIf _ _) fun _ => ?_
      exact Code.each_bind (roleStep_updateColumns _ _ (fun _ => rfl) fun _ => rfl) fun _ => trivial

end Steps

/-! ## The invariant -/

section Invariant

variable {E : Env} {s₀ s s' : Site} {tr : List LoginEntry} {e : LoginEntry}

/-- the roles are valid exactly if the requests that have created a user named a valid one; no role has changed -/
structure RoleLaw (E : Env) (s₀ s : Site) (tr : List LoginEntry) : Prop where
  valid : RolesValid s ↔ ∀ e ∈ tr, CreatesUser e → NamesValidRole E e.op
  kept : ∀ a ∈ s₀.accounts.rows, ∃ a', s.accounts.find a.id = some a' ∧ a'.role = a.role

/-- valid roles, user by user -/
theorem rolesValid_iff :
    RolesValid s ↔ ∀ id role, (s.accounts.find id).map Account.role = some role → validRole role := by
  constructor
  · intro h id role hrole
    obtain ⟨a, hfind, rfl⟩ := Option.map_eq_some_iff.1 hrole
    exact h a (Table.mem_of_find hfind)
  · intro h a ha
    apply h a.id a.role
    rw [← pk_account, Table.find_of_mem ha]
    rfl

theorem SameRoles.valid (h : SameRoles s s') : RolesValid s' ↔ RolesValid s := by
  rw [rolesValid_iff, rolesValid_iff]
  constructor
  · intro hvalid id role hrole
    exact hvalid id role ((h id).trans hrole)
  · intro hvalid id role hrole
    exact hvalid id role ((h id).symm.trans hrole)

theorem SameRoles.creates (h : SameRoles s s') (hbefore : e.before = s) (hafter : e.after = s') : ¬ CreatesUser e := by
  rintro ⟨id, hnone, hsome⟩
  rw [hbefore] at hnone
  rw [hafter] at hsome
  have hid := h id
  rw [hnone] at hid
  obtain ⟨a, ha⟩ := Option.isSome_iff_exists.1 hsome
  rw [ha] at hid
  cases hid

theorem rolesValid_insert {a : Account} (hnew : s.accounts.find a.id = none)
    (h : s'.accounts = s.accounts.insert a) : RolesValid s' ↔ RolesValid s ∧ validRole a.role := by
  unfold RolesValid
  rw [h, Table.rows_insert hnew, List.forall_mem_append, List.forall_mem_singleton]

/-- a role that is already there, after a statement -/
theorem RoleStep.kept {allowed : String → Prop} (h : RoleStep allowed s s') {id : Pk} {a : Account}
    (hfind : s.accounts.find id = some a) : ∃ a', s'.accounts.find id = some a' ∧ a'.role = a.role := by
  cases h with
  | same h =>
    have hid := h id
    rw [hfind] at hid
    exact Option.map_eq_some_iff.1 hid
  | created b hnew h hrole =>
    refine ⟨a, ?_, rfl⟩
    rw [h, Table.find_insert, hfind, Option.getD_some, ite_self]

/-- a request's statement -/
theorem RoleLaw.step (h : RoleLaw E s₀ s tr) (hbefore : e.before = s) (hafter : e.after = s')
    (hstep : RoleStep (fun text => ∃ role, requestedRole e.op.data = .ok role ∧ roleColumn E.py role = some text)
      s s') :
    RoleLaw E s₀ s' (tr ++ [e]) := by
  refine ⟨?_, ?_⟩
  · rw [List.forall_mem_append, List.forall_mem_singleton, ← h.valid]
    cases hstep with
    | same hsame =>
      rw [hsame.valid]
      exact (and_iff_left fun hcreates => absurd hcreates (hsame.creates hbefore hafter)).symm
    | created a hnew hinsert hrole =>
      obtain ⟨role, hrequested, hcolumn⟩ := hrole
      have hcreates : CreatesUser e := by
        refine ⟨a.id, ?_, ?_⟩
        · rw [hbefore]
          exact hnew
        · rw [hafter, hinsert, Table.find_insert, pk_account, if_pos rfl]
          rfl
      have hnames : NamesValidRole E e.op ↔ validRole a.role := by
        constructor
        · rintro ⟨role', text, hrequested', hcolumn', hvalid⟩
          rw [hrequested] at hrequested'
          cases hrequested'
          rw [hcolumn] at hcolumn'
          cases hcolumn'
          exact hvalid
        · intro hvalid
          exact ⟨role, a.role, hrequested, hcolumn, hvalid⟩
      rw [rolesValid_insert hnew hinsert, ← hnames]
      exact and_congr_right fun _ => ⟨fun hname _ => hname, fun hname => hname hcreates⟩
  · intro a ha
    obtain ⟨a', hfind, hsame⟩ := h.kept a ha
    obtain ⟨a'', hfind', hsame'⟩ := hstep.kept hfind
    exact ⟨a'', hfind', hsame'.trans hsame⟩

theorem role_rule (E : Env) (R : RestEnv) (s₀ : Site) (nature : Empty → Site → Site) :
    PoolRule (VerifyOTPView.post E R) nature (fun _ => True) (RoleLaw E s₀) (fun _ _ r => r.rest.Each
      (RoleStep fun text => ∃ role, requestedRole r.op.data = .ok role ∧ roleColumn E.py role = some text)) where
  own s tr c r f next hI hr hrest := by
    have heach : r.rest.Each
        (RoleStep fun text => ∃ role, requestedRole r.op.data = .ok role ∧ roleColumn E.py role = some text) := by
      rcases hr with ⟨o, -, rfl⟩ | hrun
      · exact roleStep_code E R o
      · exact hrun
    rw [hrest] at heach
    exact ⟨hI.step rfl rfl (heach s).1, fun _ => (heach s).2⟩
  others s tr c r f next r' hI hr hrest hr' := hr'
  natural s tr n := n.elim

end Invariant

/-! ## The law -/

/-- **Roles stay in their set.** After any requests, in any interleaving, every role is employer or worker exactly if
every request that has created a user named one of these or none; and every user there was before has the same role. -/
theorem roles_iff (E : Env) (R : RestEnv) (s : Site) (hs : RolesValid s) (evs : List LoginEvent) :
    (RolesValid (loginRun E R s evs).mem ↔
      ∀ e ∈ (loginRun E R s evs).trace, CreatesUser e → NamesValidRole E e.op) ∧
      ∀ a ∈ s.accounts.rows, ∃ a', (loginRun E R s evs).mem.accounts.find a.id = some a' ∧ a'.role = a.role := by
  have hinit : RoleLaw E s s [] := by
    refine ⟨iff_of_true hs ?_, ?_⟩
    · intro e he
      cases he
    · intro a ha
      exact ⟨a, Table.find_of_mem ha, rfl⟩
  have hlaw : RoleLaw E s (loginRun E R s evs).mem (loginRun E R s evs).trace :=
    (pool_inv (role_rule E R s _) (poolInv_init hinit) fun _ _ _ => trivial).shared
  exact ⟨hlaw.valid, hlaw.kept⟩

/-- a parser that knows one phone number -/
def demoRest : RestEnv where
  phoneNumber
    | .str s => if s = "+998901112233" then some s else none
    | _ => none
  isDigit s := s.toList.all Char.isDigit

def demoLogin (role : List (String × Json)) : List LoginEvent :=
  .start 0 ⟨.obj ([("phone_number", .str "+998901112233"), ("code", .str "123456")] ++ role), 3, 100⟩ ::
    List.replicate 2 (.step 0)

theorem roles_iff_demo :
    (RolesValid (loginRun demoEnv demoRest demoNew (demoLogin [])).mem ↔
      ∀ e ∈ (loginRun demoEnv demoRest demoNew (demoLogin [])).trace, CreatesUser e → NamesValidRole demoEnv e.op) ∧
      ∀ a ∈ demoNew.accounts.rows,
        ∃ a', (loginRun demoEnv demoRest demoNew (demoLogin [])).mem.accounts.find a.id = some a' ∧ a'.role = a.role :=
  roles_iff demoEnv demoRest demoNew (by unfold RolesValid; decide) (demoLogin [])

/-- the new user of a request that names admin -/
theorem role_admin :
    ((loginRun demoEnv demoRest demoNew (demoLogin [("role", .str "admin")])).mem.accounts.find 3).map Account.role =
      some "admin" := by
  decide +kernel

end GigMarketplace
