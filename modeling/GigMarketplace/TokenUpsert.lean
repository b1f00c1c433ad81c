/-
RegisterDeviceTokenView as an upsert: what one registration does to the table of device tokens.

`create` calls update_or_create, which gives a token that is there to the caller. RegisterDeviceTokenSerializer
validates before it: the field of a unique column has a UniqueValidator, and it refuses every token that has a row,
whoever owns it. A platform that is not given is not in `validated_data`, and `validated_data["platform"]` raises
KeyError.

Results:
- `run_register`: what a request with valid fields does;
- `registers_iff`: the request is an upsert iff its token has no row yet and its platform is given.
-/
import GigMarketplace.DeviceTokens

namespace GigMarketplace

open GigMarketplace.Core

/-- the rows of a token -/
def rowsOf (token : String) (s : TokenSite) : List DeviceToken := s.tokens.rows.filter fun t => t.token = token

/-- the other rows -/
def rowsBeside (token : String) (s : TokenSite) : List DeviceToken := s.tokens.rows.filter fun t => t.token ≠ token

/-- The request succeeds; then the token has one row, active, the caller's and with the platform given; the other rows
are as they were; and the same request again changes nothing. -/
def Registers (user : Pk) (data : Json) (id : Pk) (token : String) (platform : Option String) (s : TokenSite) : Prop :=
  ∃ s', (RegisterDeviceTokenView.post user data id).run s = (.ok (), s') ∧
    (∃ t, rowsOf token s' = [t] ∧ t.user = user ∧ t.isActive = true ∧ t.platform = platform.getD "android") ∧
    rowsBeside token s' = rowsBeside token s ∧
    ∀ id', ((RegisterDeviceTokenView.post user data id').run s').2.tokens = s'.tokens

section

variable {user id : Pk} {data : Json} {token : String} {platform : Option String} {s : TokenSite}

/-- the token has a row -/
def Taken (token : String) (s : TokenSite) : Prop := ∃ t ∈ s.tokens.rows, t.token = token

/-- **A request with valid fields** -/
theorem run_register (hdata : RegisterDeviceTokenSerializer.fields data = some (token, platform)) (user id : Pk)
    (s : TokenSite) :
    (Taken token s → (RegisterDeviceTokenView.post user data id).run s = (.error .invalid, s)) ∧
      (¬ Taken token s → (RegisterDeviceTokenView.post user data id).run s =
        (RegisterDeviceTokenSerializer.create id user token platform).run s) := by
  unfold RegisterDeviceTokenView.post
  rw [hdata]
  change (Taken token s → (Code.query _ >>= _ : TokenCall Unit).run s = _) ∧
    (¬ Taken token s → (Code.query _ >>= _ : TokenCall Unit).run s = _)
  constructor
  · intro htaken
    refine Code.run_bind_error ?_ _
    rw [Code.run_query]
    exact congrArg (·, s) (if_pos htaken)
  · intro hnew
    refine Code.run_bind_ok (a := ()) ?_ _
    rw [Code.run_query]
    exact congrArg (·, s) (if_neg hnew)

/-- the state after the first registration of a token -/
def TokenSite.registered (s : TokenSite) (id user : Pk) (token platform : String) : TokenSite :=
  { s with
    tokens := s.tokens.insert ⟨id, user, token, platform, true, s.clock, none⟩
    registrations := s.registrations ++ [(token, s.clock)] }

theorem run_create_new (hid : s.tokens.find id = none) (hnew : ¬ Taken token s) (user : Pk) (platform : Option String) :
    (RegisterDeviceTokenSerializer.create id user token platform).run s =
      match platform with
      | none => (.error (.keyError "platform"), s)
      | some platform => (.ok (), s.registered id user token platform) := by
  rcases platform with _ | platform
  · rfl
  · have hfind : s.tokens.rows.find? (fun t => t.token = token) = none := by
      rw [List.find?_eq_none]
      intro t ht htoken
      exact hnew ⟨t, ht, by simpa using htoken⟩
    change (DeviceToken.updateOrCreate id token user platform).run s = _
    unfold DeviceToken.updateOrCreate
    rw [Code.run_act]
    unfold Code.effect
    simp only [hfind, hid, if_true]
    rfl

theorem rows_registered (hid : s.tokens.find id = none) (user : Pk) (token platform : String) :
    (s.registered id user token platform).tokens.rows =
      s.tokens.rows ++ [⟨id, user, token, platform, true, s.clock, none⟩] := Table.rows_insert hid

theorem not_registers_taken (hdata : RegisterDeviceTokenSerializer.fields data = some (token, platform))
    (htaken : Taken token s) (user id : Pk) : ¬ Registers user data id token platform s := by
  rintro ⟨s', hrun, -⟩
  rw [(run_register hdata user id s).1 htaken] at hrun
  cases hrun

theorem not_registers_omitted (hdata : RegisterDeviceTokenSerializer.fields data = some (token, none))
    (hid : s.tokens.find id = none) (hnew : ¬ Taken token s) (user : Pk) : ¬ Registers user data id token none s := by
  rintro ⟨s', hrun, -⟩
  rw [(run_register hdata user id s).2 hnew, run_create_new hid hnew] at hrun
  cases hrun

/-- **A registration is an upsert** exactly if the token has no row yet and the platform is given. -/
theorem registers_iff (hdata : RegisterDeviceTokenSerializer.fields data = some (token, platform))
    (hid : s.tokens.find id = none) (user : Pk) :
    Registers user data id token platform s ↔ (∀ t ∈ s.tokens.rows, t.token ≠ token) ∧ platform.isSome := by
  have hnot : ¬ Taken token s ↔ ∀ t ∈ s.tokens.rows, t.token ≠ token := by
    simp [Taken]
  rw [← hnot]
  constructor
  · intro h
    have hnew : ¬ Taken token s := fun htaken => not_registers_taken hdata htaken user id h
    refine ⟨hnew, ?_⟩
    rcases platform with _ | platform
    · exact absurd h (not_registers_omitted hdata hid hnew user)
    · rfl
  · rintro ⟨hnew, hplatform⟩
    obtain ⟨platform, rfl⟩ := Option.isSome_iff_exists.1 hplatform
    have hrows := rows_registered hid user token platform
    refine ⟨s.registered id user token platform, ?_,
      ⟨⟨id, user, token, platform, true, s.clock, none⟩, ?_, rfl, rfl, rfl⟩, ?_, fun id' => ?_⟩
    · rw [(run_register hdata user id s).2 hnew, run_create_new hid hnew]
    · have hnone : (s.tokens.rows.filter fun t => t.token = token) = [] := by
        rw [List.filter_eq_nil_iff]
        intro t ht
        simpa using hnot.1 hnew t ht
      rw [rowsOf, hrows, List.filter_append, hnone]
      simp
    · rw [rowsBeside, rowsBeside, hrows, List.filter_append]
      simp
    · have hagain : Taken token (s.registered id user token platform) := by
        refine ⟨⟨id, user, token, platform, true, s.clock, none⟩, ?_, rfl⟩
        rw [hrows]
        exact List.mem_append_right _ (List.mem_singleton_self _)
      rw [(run_register hdata user id' _).1 hagain]

end

/-! ## One phone -/

def demoRegistration : Json := .obj [("token", .str "fcm-1"), ("platform", .str "ios")]

/-- the platform is left to its default -/
def demoPlain : Json := .obj [("token", .str "fcm-1")]

theorem demoRegistration_fields :
    RegisterDeviceTokenSerializer.fields demoRegistration = some ("fcm-1", some "ios") := by
  decide

/-- after the registration of user 1 -/
def demoRegistered : TokenSite := (TokenSite.init 0).registered 1 1 "fcm-1" "ios"

/-- user 2 has registered another phone -/
def demoOtherPhone : TokenSite := (TokenSite.init 0).registered 1 2 "fcm-2" "android"

/-- the first login on a phone -/
theorem registers_first_login : Registers 1 demoRegistration 2 "fcm-1" (some "ios") demoOtherPhone :=
  (registers_iff demoRegistration_fields (by decide) 1).2 ⟨by decide, rfl⟩

/-- The next login, of another user or of the same one, is refused; a first login without a platform raises. -/
theorem second_login_refused :
    ¬ Registers 2 demoRegistration 2 "fcm-1" (some "ios") demoRegistered ∧
      ¬ Registers 1 demoRegistration 2 "fcm-1" (some "ios") demoRegistered ∧
      ¬ Registers 1 demoPlain 1 "fcm-1" none (TokenSite.init 0) := by
  have htaken : Taken "fcm-1" demoRegistered := ⟨⟨1, 1, "fcm-1", "ios", true, 0, none⟩, by decide, rfl⟩
  refine ⟨not_registers_taken demoRegistration_fields htaken 2 2,
    not_registers_taken demoRegistration_fields htaken 1 2, not_registers_omitted (by decide) rfl ?_ 1⟩
  rintro ⟨t, ht, -⟩
  cases ht

end GigMarketplace
