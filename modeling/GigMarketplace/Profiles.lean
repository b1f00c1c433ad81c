/-
The profile edit: PATCH /users/me/ loads the user's row when it authenticates the request, and its `instance.save()`
writes every column of that copy back. The other writers of a row name the columns they save.

Results, for every interleaving of calls:
- `keepsUsers_code`: no statement of any call removes a user;
- `edit_load_cases`, `edit_save_cases`: the two statements of an edit;
- `profile_frame_iff`: a statement of an edit that does not end it well changes nothing; the save touches one row, and
  leaves the columns the edit is not about exactly if they are still what they were when the edit loaded the row;
- `unblocked_by_edit`: a block between the two statements is undone.
-/
import GigMarketplace.Accounts

namespace GigMarketplace

open GigMarketplace.Core

/-! ## No user disappears -/

/-- every user of `s` is a user of `s'` -/
def KeepsUsers (s s' : Site) : Prop := ∀ u, (s.accounts.find u).isSome → (s'.accounts.find u).isSome

theorem KeepsUsers.refl (s : Site) : KeepsUsers s s := fun _ h => h

theorem keepsUsers_update (s : Site) (id : Pk) (f : Account → Account) :
    KeepsUsers s { s with accounts := s.accounts.update id f } := by
  intro u h
  rw [Table.isSome_find_update]
  exact h

theorem keepsUsers_insert (s : Site) (a : Account) (db : DB) : KeepsUsers s ⟨s.accounts.insert a, db⟩ := by
  intro u h
  rw [Table.find_insert]
  split_ifs
  · rfl
  · exact h

theorem keepsUsers_updateColumns (id : Pk) (f : Account → Account) :
    (Account.updateColumns id f).Each KeepsUsers := by
  refine Code.each_act KeepsUsers.refl fun s x h => ?_
  split at h
  · cases h
  · cases h
    exact keepsUsers_update s id f

theorem keepsUsers_updateRating (a : Account) (newRating : Option ℚ) : (a.updateRating newRating).Each KeepsUsers := by
  cases newRating with
  | none => trivial
  | some x =>
    refine Code.each_act KeepsUsers.refl fun s y h => ?_
    split at h
    · cases h
    · split_ifs at h
      cases h
      exact keepsUsers_update s _ _

theorem keepsUsers_save (a : Account) (now : Time) : (a.save now).Each KeepsUsers := by
  refine Code.each_act KeepsUsers.refl fun s x h => ?_
  split at h
  · cases h
    exact keepsUsers_update s _ _
  · split at h
    · cases h
    · cases h
      exact keepsUsers_insert s _ _

theorem keepsUsers_create (id : Pk) (phoneNumber role : String) (now : Time) :
    (Account.create id phoneNumber role now).Each KeepsUsers := by
  refine Code.each_act KeepsUsers.refl fun s x h => ?_
  split at h
  · cases h
    exact KeepsUsers.refl s
  · split_ifs at h
    cases h
    exact keepsUsers_insert s _ _

theorem keepsUsers_serviceCall (E : Env) (op : Op) : (serviceCall E op).Each KeepsUsers := by
  refine Code.each_act KeepsUsers.refl fun s x h => ?_
  split at h
  · cases h
    exact KeepsUsers.refl s
  · cases h

theorem keepsUsers_rateUser (E : Env) (rater : Pk) (target : Account) (rating : Option ℚ) (jobId : String) :
    (UserService.rateUser E rater target rating jobId).Each KeepsUsers := by
  refine Code.each_bind (Code.each_query KeepsUsers.refl _) fun job => ?_
  refine Code.each_bind (Code.each_raiseIf _ _) fun _ => ?_
  refine Code.each_bind (Code.each_raiseIf _ _) fun _ => ?_
  exact Code.each_bind (Code.each_raiseIf _ _) fun _ => keepsUsers_updateRating target rating

theorem keepsUsers_authenticate (id : Pk) : (Account.authenticate id).Each KeepsUsers := by
  refine Code.each_bind (Code.each_query KeepsUsers.refl _) fun user => ?_
  exact Code.each_bind (Code.each_raiseIf _ _) fun _ => trivial

theorem keepsUsers_authenticateOrCreate (id : Pk) (phoneNumber role : String) (now : Time) :
    (AuthService.authenticateOrCreate id phoneNumber role now).Each KeepsUsers := by
  have hfetch : (Account.getOrCreate id phoneNumber role now).Each KeepsUsers := by
    refine Code.each_bind (Code.each_query KeepsUsers.refl _) fun found => ?_
    cases found with
    | none => exact keepsUsers_create id phoneNumber role now
    | some user => trivial
  refine Code.each_bind hfetch fun found => ?_
  refine Code.each_bind (Code.each_raiseIf _ _) fun _ => ?_
  refine Code.each_bind (Code.each_raiseIf _ _) fun _ => ?_
  exact Code.each_bind (keepsUsers_updateColumns _ _) fun _ => trivial

/-- **No statement of a call removes a user.** -/
theorem keepsUsers_code (E : Env) (o : AccountOp) : (o.code E).Each KeepsUsers := by
  cases o with
  | rateUser rater target rating jobId =>
    exact Code.each_bind (Code.each_query KeepsUsers.refl _) fun user => keepsUsers_rateUser E rater user rating jobId
  | updateProfile user data now =>
    refine Code.each_bind (keepsUsers_authenticate user) fun user => ?_
    refine Code.each_bind ?_ fun _ => trivial
    exact Code.each_bind (keepsUsers_save _ now) fun _ => trivial
  | blockUser user reason =>
    exact Code.each_bind (Code.each_query KeepsUsers.refl _) fun user => keepsUsers_updateColumns _ _
  | unblockUser user =>
    exact Code.each_bind (Code.each_query KeepsUsers.refl _) fun user => keepsUsers_updateColumns _ _
  | authenticateOrCreate id phoneNumber role now =>
    exact Code.each_bind (keepsUsers_authenticateOrCreate id phoneNumber role now) fun _ => trivial
  | service op => exact keepsUsers_serviceCall E op

/-! ## The two statements of an edit -/

section Statements

variable {E : Env} {s : Site} {f : Site → Site} {next : Site → Call Unit} {u : Pk} {data : ProfileData} {now : Time}
  {loaded : Account}

/-- an edit after the row was loaded -/
def editSave (loaded : Account) (data : ProfileData) (now : Time) : Call Unit := do
  let _ ← UpdateProfileSerializer.update loaded data now
  return ()

theorem edit_load_cases (h : AccountOp.code E (.updateProfile u data now) = .stmt f next) :
    f s = s ∧ ((∃ e, next s = .raise e) ∨
      ∃ loaded, s.accounts.find u = some loaded ∧ next s = editSave loaded data now) := by
  injection h with hf hnext
  subst hf hnext
  refine ⟨rfl, ?_⟩
  cases hrow : s.accounts.find u with
  | none => exact Or.inl ⟨.authenticationFailed "User not found", by simp only [hrow]; rfl⟩
  | some loaded =>
    by_cases hactive : loaded.isActive = true
    · simp only [hrow, hactive, if_true]
      rcases Code.raiseIf_bind_cases (¬ (loaded.isActive ∧ ¬ loaded.isBlocked))
        (.permissionDenied "Your account has been suspended.") fun _ => (.ret loaded : Call Account) with
        hraise | ⟨-, hgo⟩
      · exact Or.inl ⟨_, congrArg (Code.bind · _) hraise⟩
      · exact Or.inr ⟨loaded, rfl, congrArg (Code.bind · _) hgo⟩
    · left
      exact ⟨.authenticationFailed "User is inactive", by simp only [hrow, hactive]; rfl⟩

/-- the row that an edit of the copy `a` writes -/
def Account.edited (a : Account) (data : ProfileData) (now : Time) : Account :=
  let a := a.withProfile data
  { a with updatedAt := now }

@[simp] theorem withProfile_id (a : Account) (data : ProfileData) : (a.withProfile data).id = a.id := by
  simp only [Account.withProfile]
  split_ifs <;> rfl

@[simp] theorem edited_id (a : Account) (data : ProfileData) (now : Time) : (a.edited data now).id = a.id :=
  withProfile_id a data

theorem edit_save_cases (h : editSave loaded data now = .stmt f next)
    (hpresent : (s.accounts.find loaded.id).isSome) :
    next s = .ret () ∧ f s = { s with accounts := s.accounts.update loaded.id fun _ => loaded.edited data now } := by
  injection h with hf hnext
  subst hf hnext
  obtain ⟨row, hrow⟩ := Option.isSome_iff_exists.1 hpresent
  rw [← withProfile_id loaded data] at hrow
  refine ⟨?_, ?_⟩
  · simp only [hrow]
    rfl
  · unfold Code.effect
    simp only [hrow]
    rw [withProfile_id]
    rfl

end Statements

/-! ## What an edit changes -/

/-- the row without the columns that an edit is about -/
def Account.otherColumns (a : Account) : Account :=
  { a with name := "", avatar := none, bio := "", isProfileComplete := false, updatedAt := 0 }

theorem otherColumns_edited (a : Account) (data : ProfileData) (now : Time) :
    (a.edited data now).otherColumns = a.otherColumns := by
  simp only [Account.edited, Account.withProfile]
  split_ifs <;> rfl

/-- an executed statement of an edit -/
inductive EditStatement (u : Pk) (data : ProfileData) (now : Time) (e : AccountEntry) : Prop where
  | quiet (hsame : e.after = e.before) (hres : e.result ≠ some (.ok ()))
  | saved (loaded : Account) (hloaded : e.origin.accounts.find u = some loaded)
      (hpresent : (e.before.accounts.find u).isSome) (hres : e.result = some (.ok ()))
      (hafter : e.after =
        { e.before with accounts := e.before.accounts.update u fun _ => loaded.edited data now })

/-- the edits among the executed statements -/
def Edited (_ : Site) (tr : List AccountEntry) : Prop :=
  ∀ e ∈ tr, ∀ u data now, e.op = .updateProfile u data now → EditStatement u data now e

/-- a call under way keeps all users; an edit under way has loaded the row of its user -/
structure Editing (s : Site) (_ : List AccountEntry) (r : Running Site Failure Unit AccountOp) : Prop where
  keeps : r.rest.Each KeepsUsers
  edit : ∀ u data now, r.op = .updateProfile u data now → ∃ loaded, r.origin.accounts.find u = some loaded ∧
    (s.accounts.find u).isSome ∧ r.rest = editSave loaded data now

theorem Edited.snoc {s s' : Site} {tr : List AccountEntry} {e : AccountEntry} (h : Edited s tr)
    (he : ∀ u data now, e.op = .updateProfile u data now → EditStatement u data now e) : Edited s' (tr ++ [e]) := by
  intro e' he'
  rcases List.mem_append.1 he' with he' | he'
  · exact h e' he'
  · rw [List.mem_singleton.1 he']
    exact he

theorem edit_rule (E : Env) (nature : Empty → Site → Site) :
    PoolRule (AccountOp.code E) nature (fun _ => True) Edited Editing where
  own s tr c r f next hI hr hrest := by
    obtain ⟨hkeeps, hnext⟩ := hr.each hrest (fun o _ => keepsUsers_code E o) Editing.keeps s
    by_cases hedit : ∃ u data now, r.op = .updateProfile u data now
    · obtain ⟨u, data, now, hop⟩ := hedit
      rcases hr with ⟨o, -, rfl⟩ | hrun
      · -- the edit begins
        subst hop
        obtain ⟨hsame, ⟨e, he⟩ | ⟨loaded, hloaded, hsave⟩⟩ := edit_load_cases (E := E) (s := s) hrest
        · refine ⟨hI.snoc fun u' data' now' _ => .quiet hsame ?_, fun hres => absurd hres (Code.ended_of_raise he)⟩
          simp [Running.entry, he, Code.result]
        · have hrunning : (next s).result = none := by rw [hsave]; rfl
          refine ⟨hI.snoc fun u' data' now' _ => .quiet hsame ?_, fun _ => ⟨hnext, fun u' data' now' hop' => ?_⟩⟩
          · simp [Running.entry, hrunning]
          · cases hop'
            refine ⟨loaded, hloaded, ?_, hsave⟩
            rw [hsame, hloaded]
            rfl
      · -- the edit saves
        obtain ⟨loaded, hloaded, hpresent, hsave⟩ := hrun.edit u data now hop
        have hid : loaded.id = u := Table.pk_of_find hloaded
        rw [hrest] at hsave
        rw [← hid] at hpresent
        obtain ⟨hret, hafter⟩ := edit_save_cases hsave.symm hpresent
        rw [hid] at hpresent hafter
        refine ⟨hI.snoc fun u' data' now' hop' => ?_, fun hres => absurd hres (Code.ended_of_ret hret)⟩
        rw [show (r.entry c tr.length s f (next s)).op = r.op from rfl, hop] at hop'
        cases hop'
        exact .saved loaded hloaded hpresent (congrArg Code.result hret) hafter
    · refine ⟨hI.snoc fun u data now hop => absurd ⟨u, data, now, hop⟩ hedit, fun _ => ⟨hnext, ?_⟩⟩
      exact fun u data now hop => absurd ⟨u, data, now, hop⟩ hedit
  others s tr c r f next r' hI hr hrest hr' := by
    obtain ⟨hkeeps, -⟩ := hr.each hrest (fun o _ => keepsUsers_code E o) Editing.keeps s
    refine ⟨hr'.keeps, fun u data now hop => ?_⟩
    obtain ⟨loaded, hloaded, hpresent, hsave⟩ := hr'.edit u data now hop
    exact ⟨loaded, hloaded, hkeeps u hpresent, hsave⟩
  natural s tr n := n.elim

/-- **The frame of an edit.** Statements that do not end it well change nothing. The save touches the row of its user
only, and the columns that an edit is not about keep their values exactly if these are the values they had when the
edit loaded the row. -/
theorem profile_frame_iff (E : Env) (s : Site) (evs : List AccountEvent) (e : AccountEntry)
    (he : e ∈ (accountRun E s evs).trace) (u : Pk) (data : ProfileData) (now : Time)
    (hop : e.op = .updateProfile u data now) :
    (e.result ≠ some (.ok ()) → e.after = e.before) ∧
      (e.result = some (.ok ()) → ∃ loaded before after, e.origin.accounts.find u = some loaded ∧
        e.before.accounts.find u = some before ∧ e.after.accounts.find u = some after ∧
        (∀ u', u' ≠ u → e.after.accounts.find u' = e.before.accounts.find u') ∧ e.after.db = e.before.db ∧
        (after.otherColumns = before.otherColumns ↔ before.otherColumns = loaded.otherColumns)) := by
  have hinit : Edited s [] := fun e' he' => by cases he'
  have hedited : Edited (accountRun E s evs).mem (accountRun E s evs).trace :=
    (pool_inv (edit_rule E _) (poolInv_init hinit) fun _ _ _ => trivial).shared
  cases hedited e he u data now hop with
  | quiet hsame hres => exact ⟨fun _ => hsame, fun h => absurd h hres⟩
  | saved loaded hloaded hpresent hres hafter =>
    refine ⟨fun h => absurd hres h, fun _ => ?_⟩
    obtain ⟨before, hbefore⟩ := Option.isSome_iff_exists.1 hpresent
    have hkey : pk (loaded.edited data now) = pk before := by
      rw [pk_account, pk_account, edited_id]
      exact (Table.pk_of_find hloaded).trans (Table.pk_of_find hbefore).symm
    refine ⟨loaded, before, loaded.edited data now, hloaded, hbefore, ?_, ?_, ?_, ?_⟩
    · rw [hafter]
      exact Table.find_update_self (f := fun _ => loaded.edited data now) hbefore hkey
    · intro u' hu'
      rw [hafter]
      exact Table.find_update_ne (Ne.symm hu')
    · rw [hafter]
    · rw [otherColumns_edited]
      exact eq_comm

/-- the edit of a name -/
def demoName : ProfileData := ⟨some "Ali", none, none, by decide, by decide⟩

/-- a moderator blocks the account after the edit has loaded it -/
def demoBlocked : List AccountEvent :=
  [.start 0 (.updateProfile 2 demoName 8), .start 1 (.blockUser 2 "spam"), .step 1, .step 0]

def demoNew : Site := ⟨demoAccounts, init demoUsers⟩

/-- the block is in the row before the edit saves, and no longer after -/
theorem unblocked_by_edit :
    ((accountRun demoEnv demoNew (demoBlocked.take 3)).mem.accounts.find 2).map Account.isBlocked = some true ∧
      ((accountRun demoEnv demoNew demoBlocked).mem.accounts.find 2).map Account.isBlocked = some false := by
  decide +kernel

/-- the edit's save -/
def demoSaved : AccountEntry :=
  (accountRun demoEnv demoNew demoBlocked).trace.getLast (List.append_ne_nil_of_right_ne_nil _ (List.cons_ne_nil _ _))

theorem profile_frame_iff_demo :
    ∃ loaded before after, demoSaved.origin.accounts.find 2 = some loaded ∧
      demoSaved.before.accounts.find 2 = some before ∧ demoSaved.after.accounts.find 2 = some after ∧
      (∀ u', u' ≠ 2 → demoSaved.after.accounts.find u' = demoSaved.before.accounts.find u') ∧
      demoSaved.after.db = demoSaved.before.db ∧
      (after.otherColumns = before.otherColumns ↔ before.otherColumns = loaded.otherColumns) :=
  (profile_frame_iff demoEnv demoNew demoBlocked demoSaved (List.getLast_mem _) 2 demoName 8 rfl).2 rfl

end GigMarketplace
