/-
The users: who they are does not change while calls run, and everyone who joins gets a wallet.

A user is known by the phone number and the role of the row. `SiteLaw` says that no two users have a phone number in
common, that the money code sees the same users, that the books are in order (`Market.lean`), and that employers post
the jobs and workers accept them. `SiteStep` says once what a statement of any call does: it leaves both the users and
the books, it is a transaction of a service on behalf of a user whose role the row bears out, or a user joins whose
phone number nobody has.

Results:
- `SiteStep.law`, `SiteStep.grows`, `SiteStep.newcomer`: what every statement keeps, and who may be new after it;
- `minds_serviceCall`: a transaction for a user who was in the table before;
- `assures_account`: the calls of `Accounts.lean` that edit users. The profile's save writes the columns it loaded, and
  relies on the others for what it loaded still to be there;
- `assures_authenticateOrCreate`: the user whom a sign-in returns has the phone number it was asked for.
-/
import GigMarketplace.Core.Rely
import GigMarketplace.Deadlock
import GigMarketplace.JobHistory
import GigMarketplace.Market
import GigMarketplace.Roles

namespace GigMarketplace

open GigMarketplace.Core

/-! ## Users -/

/-- phone number and role -/
def Site.identity (s : Site) (id : Pk) : Option (String × String) :=
  (s.accounts.find id).map fun a => (a.phoneNumber, a.role)

/-- the user is there, with the role -/
def Site.HasRole (s : Site) (id : Pk) (role : String) : Prop := ∃ phone, s.identity id = some (phone, role)

structure SiteLaw (E : Env) (s : Site) : Prop where
  market : Market E s.db
  phones : ∀ id id' p p', s.identity id = some p → s.identity id' = some p' → p.1 = p'.1 → id = id'
  users : ∀ id, s.db.users.find id = (s.identity id).map fun p => ⟨id, p.2⟩
  employers : ∀ i j, s.db.jobs.find i = some j → s.HasRole j.employer UserRole.employer.value
  workers : ∀ i j u, s.db.jobs.find i = some j → j.worker = some u → s.HasRole u UserRole.worker.value

/-- everyone is still there, with the same phone number and role -/
def KeptPeople (s s' : Site) : Prop := ∀ id p, s.identity id = some p → s'.identity id = some p

theorem KeptPeople.refl (s : Site) : KeptPeople s s := fun _ _ h => h

theorem KeptPeople.trans {s₁ s₂ s₃ : Site} (h : KeptPeople s₁ s₂) (h' : KeptPeople s₂ s₃) : KeptPeople s₁ s₃ :=
  fun id p hp => h' id p (h id p hp)

/-- a job keeps what it was posted with, and the worker it has -/
structure Job.Stays (j j' : Job) : Prop where
  employer : j'.employer = j.employer
  title : j'.title = j.title
  category : j'.category = j.category
  price : j'.price = j.price
  latitude : j'.latitude = j.latitude
  longitude : j'.longitude = j.longitude
  createdAt : j'.createdAt = j.createdAt
  worker : ∀ u, j.worker = some u → j'.worker = some u

theorem Job.Stays.refl (j : Job) : j.Stays j := ⟨rfl, rfl, rfl, rfl, rfl, rfl, rfl, fun _ h => h⟩

theorem Job.Stays.trans {j j' j'' : Job} (h : j.Stays j') (h' : j'.Stays j'') : j.Stays j'' where
  employer := h'.employer.trans h.employer
  title := h'.title.trans h.title
  category := h'.category.trans h.category
  price := h'.price.trans h.price
  latitude := h'.latitude.trans h.latitude
  longitude := h'.longitude.trans h.longitude
  createdAt := h'.createdAt.trans h.createdAt
  worker := fun u hu => h'.worker u (h.worker u hu)

/-- what no call takes back -/
structure Kept (s s' : Site) : Prop where
  people : KeptPeople s s'
  jobs : ∀ i j, s.db.jobs.find i = some j → ∃ j', s'.db.jobs.find i = some j' ∧ j.Stays j'

theorem Kept.refl (s : Site) : Kept s s := ⟨KeptPeople.refl s, fun _ j hj => ⟨j, hj, Job.Stays.refl j⟩⟩

theorem Kept.trans {s₁ s₂ s₃ : Site} (h : Kept s₁ s₂) (h' : Kept s₂ s₃) : Kept s₁ s₃ where
  people := h.people.trans h'.people
  jobs := fun i j hj => by
    obtain ⟨j', hj', hstays⟩ := h.jobs i j hj
    obtain ⟨j'', hj'', hstays'⟩ := h'.jobs i j' hj'
    exact ⟨j'', hj'', hstays.trans hstays'⟩

/-- the caller's role is the one of the row -/
def Op.Genuine (s : Site) (op : Op) : Prop := ∀ user, op.caller = some user → s.HasRole user.id user.role

/-- what a statement does; `allowed` are the phone numbers that may join, `may` the operations -/
inductive SiteStep (E : Env) (allowed : String → Prop) (may : Op → Prop) (s s' : Site) : Prop where
  | same (hpeople : s'.identity = s.identity) (hdb : s'.db = s.db)
  | served (op : Op) (hmay : may op) (hgenuine : op.Genuine s) (hpeople : s'.identity = s.identity)
      (hstep : Step E s.db op s'.db)
  | joins (id : Pk) (phoneNumber role : String) (now : Time) (hallowed : allowed phoneNumber)
      (hfree : Account.byPhone s phoneNumber = none) (hnew : s.accounts.find id = none)
      (h : s' = ⟨s.accounts.insert (newAccount id phoneNumber role now), joined s.db id role⟩)

section Steps

variable {E : Env} {allowed : String → Prop} {may : Op → Prop} {s s' : Site} {id : Pk} {phoneNumber role : String}
  {now : Time}

theorem identity_of_find {a : Account} (h : s.accounts.find id = some a) :
    s.identity id = some (a.phoneNumber, a.role) := by
  rw [Site.identity, h]
  rfl

theorem identity_none : s.identity id = none ↔ s.accounts.find id = none := Option.map_eq_none_iff

theorem SiteStep.refl (s : Site) : SiteStep E allowed may s s := .same rfl rfl

/-- columns that say nothing of who the user is -/
theorem identity_update (s : Site) (id : Pk) {f : Account → Account}
    (hf : ∀ a, s.accounts.find id = some a →
      (f a).id = a.id ∧ (f a).phoneNumber = a.phoneNumber ∧ (f a).role = a.role) :
    ({ s with accounts := s.accounts.update id f } : Site).identity = s.identity := by
  funext u
  unfold Site.identity
  by_cases hu : id = u
  · subst hu
    cases hfind : s.accounts.find id with
    | none => rw [Table.find_update, if_pos rfl, hfind]; rfl
    | some a =>
      obtain ⟨hid, hphone, hrole⟩ := hf a hfind
      rw [Table.find_update_self hfind hid, Option.map_some, Option.map_some, hphone, hrole]
  · rw [Table.find_update_ne hu]

theorem identity_insert (hnew : s.accounts.find id = none) (db : DB) (u : Pk) :
    (⟨s.accounts.insert (newAccount id phoneNumber role now), db⟩ : Site).identity u =
      if id = u then some (phoneNumber, role) else s.identity u := by
  unfold Site.identity
  rw [Table.find_insert, pk_account]
  change Option.map _ (if id = u then _ else _) = _
  split_ifs with hu
  · subst hu
    rw [hnew]
    rfl
  · rfl

theorem byPhone_some {a : Account} (h : Account.byPhone s phoneNumber = some a) :
    s.accounts.find a.id = some a ∧ a.phoneNumber = phoneNumber := by
  have hphone := List.find?_some h
  exact ⟨Table.find_of_mem (List.mem_of_find?_eq_some h), of_decide_eq_true hphone⟩

/-- nobody has the phone number -/
theorem byPhone_none (h : Account.byPhone s phoneNumber = none) {u : Pk} {p : String × String}
    (hp : s.identity u = some p) : p.1 ≠ phoneNumber := by
  obtain ⟨a, hfind, rfl⟩ := Option.map_eq_some_iff.1 hp
  have hnone := List.find?_eq_none.1 h a (Table.mem_of_find hfind)
  exact fun he => hnone (decide_eq_true he)

theorem Site.HasRole.kept (h : s.HasRole id role) (hkept : KeptPeople s s') : s'.HasRole id role := by
  obtain ⟨phone, hphone⟩ := h
  exact ⟨phone, hkept _ _ hphone⟩

theorem Op.Genuine.kept {op : Op} (h : op.Genuine s) (hkept : KeptPeople s s') : op.Genuine s' :=
  fun user hcaller => (h user hcaller).kept hkept

/-- the parties of a job after an operation have the roles they had, or the caller's -/
theorem roles_step {db' : DB} {op : Op} (hs : SiteLaw E s) (hgenuine : op.Genuine s) (hstep : Step E s.db op db')
    {i : Pk} {j : Job} (hj : db'.jobs.find i = some j) :
    s.HasRole j.employer UserRole.employer.value ∧ ∀ u, j.worker = some u → s.HasRole u UserRole.worker.value := by
  cases hstep.job_moves i with
  | same h =>
    rw [hj] at h
    exact ⟨hs.employers i j h.symm, fun u => hs.workers i j u h.symm⟩
  | posted employer data now hop hrole hfresh h =>
    rw [hj] at h
    cases h
    have hcaller := hgenuine employer (by rw [hop]; rfl)
    rw [of_decide_eq_true hrole] at hcaller
    exact ⟨hcaller, fun u hu => by cases hu⟩
  | moved k k' hk hmove h =>
    rw [hj] at h
    cases h
    cases hmove with
    | @accept jobId worker now hid hrole hown hstatus =>
      have hcaller := hgenuine worker rfl
      rw [of_decide_eq_true hrole] at hcaller
      refine ⟨hs.employers i k hk, fun u hu => ?_⟩
      cases hu
      exact hcaller
    | start hid hworker hstatus => exact ⟨hs.employers i k hk, fun u => hs.workers i k u hk⟩
    | complete hid hrole hemployer hstatus => exact ⟨hs.employers i k hk, fun u => hs.workers i k u hk⟩
    | cancel hid hcaller hopen => exact ⟨hs.employers i k hk, fun u => hs.workers i k u hk⟩

theorem SiteStep.kept (h : SiteStep E allowed may s s') : KeptPeople s s' := by
  intro u p hp
  cases h with
  | same hpeople hdb => rwa [hpeople]
  | served op hmay hgenuine hpeople hstep => rwa [hpeople]
  | joins id phoneNumber role now hallowed hfree hnew h =>
    have hne : id ≠ u := by
      rintro rfl
      rw [identity_none.2 hnew] at hp
      cases hp
    rw [h, identity_insert hnew, if_neg hne]
    exact hp

/-- a job without a worker is the only one that gets one -/
theorem Op.Moves.stays {op : Op} {j j' : Job} (h : op.Moves E j j') (hfree : j.status = .created → j.worker = none) :
    j.Stays j' := by
  cases h with
  | accept hid hrole hown hstatus =>
    refine ⟨rfl, rfl, rfl, rfl, rfl, rfl, rfl, fun u hu => ?_⟩
    rw [hfree hstatus] at hu
    cases hu
  | start hid hworker hstatus => exact ⟨rfl, rfl, rfl, rfl, rfl, rfl, rfl, fun _ hu => hu⟩
  | complete hid hrole hemployer hstatus => exact ⟨rfl, rfl, rfl, rfl, rfl, rfl, rfl, fun _ hu => hu⟩
  | cancel hid hcaller hopen => exact ⟨rfl, rfl, rfl, rfl, rfl, rfl, rfl, fun _ hu => hu⟩

theorem SiteStep.joinsOf (h : SiteStep E allowed may s s') {allowed' : String → Prop}
    (hallowed : ∀ phone, allowed phone → allowed' phone) : SiteStep E allowed' may s s' := by
  cases h with
  | same hpeople hdb => exact .same hpeople hdb
  | served op hmay hgenuine hpeople hstep => exact .served op hmay hgenuine hpeople hstep
  | joins id phoneNumber role now hphone hfree hnew h =>
    exact .joins id phoneNumber role now (hallowed _ hphone) hfree hnew h

theorem SiteStep.grows (h : SiteStep E allowed may s s') (hs : SiteLaw E s) : Kept s s' := by
  refine ⟨h.kept, fun i j hj => ?_⟩
  cases h with
  | same hpeople hdb =>
    rw [hdb]
    exact ⟨j, hj, Job.Stays.refl j⟩
  | served op hmay hgenuine hpeople hstep =>
    cases hstep.job_moves i with
    | same h =>
      rw [hj] at h
      exact ⟨j, h, Job.Stays.refl j⟩
    | posted employer data now hop hrole hfresh h =>
      rw [hj] at hfresh
      cases hfresh
    | moved k k' hk hmove h =>
      rw [hj] at hk
      cases hk
      exact ⟨k', h, hmove.stays (hs.market.inv.linked.jobs j (Table.mem_of_find hj)).created⟩
  | joins id phoneNumber role now hallowed hfree hnew h =>
    rw [h]
    exact ⟨j, hj, Job.Stays.refl j⟩

/-- whoever is new has joined by this statement -/
theorem SiteStep.newcomer (h : SiteStep E allowed may s s') {u : Pk} {p : String × String}
    (hp : s'.identity u = some p) :
    s.identity u = some p ∨ allowed p.1 := by
  cases h with
  | same hpeople hdb =>
    rw [hpeople] at hp
    exact Or.inl hp
  | served op hmay hgenuine hpeople hstep =>
    rw [hpeople] at hp
    exact Or.inl hp
  | joins id phoneNumber role now hallowed hfree hnew h =>
    rw [h, identity_insert hnew] at hp
    split_ifs at hp
    · cases hp
      exact Or.inr hallowed
    · exact Or.inl hp

/-- **The law**, after any statement. -/
theorem SiteStep.law (h : SiteStep E allowed may s s') (hs : SiteLaw E s) : SiteLaw E s' := by
  have hkept : KeptPeople s s' := h.kept
  cases h with
  | same hpeople hdb =>
    refine ⟨?_, ?_, ?_, ?_, ?_⟩
    · rw [hdb]
      exact hs.market
    · rw [hpeople]
      exact hs.phones
    · rw [hpeople, hdb]
      exact hs.users
    · rw [hdb]
      exact fun i j hj => (hs.employers i j hj).kept hkept
    · rw [hdb]
      exact fun i j u hj hu => (hs.workers i j u hj hu).kept hkept
  | served op hmay hgenuine hpeople hstep =>
    refine ⟨market_step hs.market hstep, ?_, ?_, ?_, ?_⟩
    · rw [hpeople]
      exact hs.phones
    · rw [hpeople, hstep.users]
      exact hs.users
    · intro i j hj
      exact (roles_step hs hgenuine hstep hj).1.kept hkept
    · intro i j u hj hu
      exact ((roles_step hs hgenuine hstep hj).2 u hu).kept hkept
  | joins id phoneNumber role now hallowed hfree hnew h =>
    subst h
    have huser : s.db.users.find id = none := by
      rw [hs.users, identity_none.2 hnew]
      rfl
    refine ⟨market_join hs.market huser, ?_, ?_, ?_, ?_⟩
    · intro u u' p p' hp hp' heq
      rw [identity_insert hnew] at hp hp'
      split_ifs at hp with hu
      · split_ifs at hp' with hu'
        · exact hu.symm.trans hu'
        · cases hp
          exact absurd heq.symm (byPhone_none hfree hp')
      · split_ifs at hp' with hu'
        · cases hp'
          exact absurd heq (byPhone_none hfree hp)
        · exact hs.phones u u' p p' hp hp' heq
    · intro u
      rw [identity_insert hnew]
      change (s.db.users.insert ⟨id, role⟩).find u = _
      rw [Table.find_insert, pk_user]
      change (if id = u then _ else _) = _
      split_ifs with hu
      · subst hu
        rw [huser]
        rfl
      · exact hs.users u
    · exact fun i j hj => (hs.employers i j hj).kept hkept
    · exact fun i j u hj hu => (hs.workers i j u hj hu).kept hkept

end Steps

/-! ## The calls -/

/-- a call that edits a user; the others are the sign-in and the services -/
def AccountOp.isEdit : AccountOp → Bool
  | .rateUser .. => true
  | .updateProfile .. => true
  | .blockUser .. => true
  | .unblockUser .. => true
  | .authenticateOrCreate .. => false
  | .service _ => false

section Calls

variable {E : Env} {allowed : String → Prop} {may : Op → Prop} {s : Site}

/-- the triples of this module -/
abbrev Minds (E : Env) (allowed : String → Prop) (may : Op → Prop) {A : Type} (Q : A → Site → Prop) (c : Call A)
    (s : Site) : Prop :=
  c.Assures (SiteLaw E) Kept (SiteStep E allowed may) Q s

theorem minds_each {A : Type} {c : Call A} (h : c.Each (SiteStep E allowed may)) :
    Minds E allowed may (fun _ _ => True) c s :=
  Code.assures_each (fun _ _ hs hstep => hstep.law hs) h

theorem siteStep_updateColumns (id : Pk) {f : Account → Account}
    (hf : ∀ a, (f a).id = a.id ∧ (f a).phoneNumber = a.phoneNumber ∧ (f a).role = a.role) :
    (Account.updateColumns id f).Each (SiteStep E allowed may) := by
  apply Code.each_act SiteStep.refl
  intro s x h
  split at h
  · cases h
  · cases h
    exact .same (identity_update s id fun a _ => hf a) rfl

theorem siteStep_updateRating (a : Account) (newRating : Option ℚ) :
    (a.updateRating newRating).Each (SiteStep E allowed may) := by
  cases newRating with
  | none => trivial
  | some x =>
    apply Code.each_act SiteStep.refl
    intro s y h
    split at h
    · cases h
    · split_ifs at h
      cases h
      exact .same (identity_update s a.id fun _ _ => ⟨rfl, rfl, rfl⟩) rfl

/-- a transaction for a user who has been found before -/
theorem minds_serviceCall {op : Op} (hmay : may op) (hgenuine : op.Genuine s) :
    Minds E allowed may (fun _ _ => True) (serviceCall E op) s := by
  apply Code.assures_act SiteStep.refl
  intro s' x hkept hs h
  split at h
  · rename_i y hexec
    cases h
    have hstep : SiteStep E allowed may s' { s' with db := y.2 } :=
      .served op hmay (hgenuine.kept hkept.people) rfl (runs_prog.1 hexec)
    exact ⟨hstep.law hs, hstep, trivial⟩
  · cases h

theorem siteStep_rateUser (rater : Pk) (target : Account) (rating : Option ℚ) (jobId : String) :
    (UserService.rateUser E rater target rating jobId).Each (SiteStep E allowed may) := by
  refine Code.each_bind (Code.each_query SiteStep.refl _) fun job => ?_
  refine Code.each_bind (Code.each_raiseIf _ _) fun _ => ?_
  refine Code.each_bind (Code.each_raiseIf _ _) fun _ => ?_
  exact Code.each_bind (Code.each_raiseIf _ _) fun _ => siteStep_updateRating target rating

/-- the user of a request was in the table when the request was authenticated, and stays -/
theorem minds_authenticate (id : Pk) :
    Minds E allowed may (fun a s => s.identity a.id = some (a.phoneNumber, a.role)) (Account.authenticate id) s := by
  refine Code.assures_bind (P := fun a s => s.identity a.id = some (a.phoneNumber, a.role)) ?_ fun a s' ha => ?_
  · apply Code.assures_query SiteStep.refl
    intro s' a _ _ h
    split at h
    · cases h
    · rename_i b hfind
      split_ifs at h
      cases h
      have hid : a.id = id := Table.pk_of_find hfind
      rw [hid]
      exact identity_of_find hfind
  · refine Code.assures_bind (P := fun _ s => s.identity a.id = some (a.phoneNumber, a.role)) ?_ fun _ s'' hb => ?_
    · exact Code.assures_raiseIf fun _ => ha
    · exact hb

/-- the columns that a plain save writes back are those of the row -/
theorem minds_save (a : Account) (now : Time) (ha : s.identity a.id = some (a.phoneNumber, a.role)) :
    Minds E allowed may (fun _ _ => True) (a.save now) s := by
  apply Code.assures_act SiteStep.refl
  intro s' x hkept hs h
  have hnow : s'.identity a.id = some (a.phoneNumber, a.role) := hkept.people _ _ ha
  split at h
  · rename_i row hfind
    cases h
    have hstep : SiteStep E allowed may s'
        { s' with accounts := s'.accounts.update a.id fun _ => { a with updatedAt := now } } := by
      apply SiteStep.same (identity_update s' a.id ?_) rfl
      intro r hr
      have hid : r.id = a.id := Table.pk_of_find hr
      have hrow := Option.some.inj (hnow.symm.trans (identity_of_find hr))
      exact ⟨hid.symm, congrArg Prod.fst hrow, congrArg Prod.snd hrow⟩
    exact ⟨hstep.law hs, hstep, trivial⟩
  · rename_i hfind
    rw [identity_none.2 hfind] at hnow
    cases hnow

theorem withProfile_identity (a : Account) (data : ProfileData) :
    (a.withProfile data).id = a.id ∧ (a.withProfile data).phoneNumber = a.phoneNumber ∧
      (a.withProfile data).role = a.role := by
  unfold Account.withProfile
  dsimp only
  split_ifs <;> exact ⟨rfl, rfl, rfl⟩

/-- **The calls that edit users.** -/
theorem assures_account (o : AccountOp) (h : o.isEdit = true) : Minds E allowed may (fun _ _ => True) (o.code E) s := by
  cases o with
  | rateUser rater target rating jobId =>
    exact minds_each
      (Code.each_bind (Code.each_query SiteStep.refl _) fun user => siteStep_rateUser rater user rating jobId)
  | updateProfile user data now =>
    refine Code.assures_bind (minds_authenticate user) fun a s' ha => ?_
    refine Code.assures_bind (P := fun _ _ => True) ?_ fun _ _ _ => trivial
    refine Code.assures_bind (P := fun _ _ => True) (minds_save _ now ?_) fun _ _ _ => trivial
    obtain ⟨hid, hphone, hrole⟩ := withProfile_identity a data
    rw [hid, hphone, hrole]
    exact ha
  | blockUser user reason =>
    refine minds_each (Code.each_bind (Code.each_query SiteStep.refl _) fun a => ?_)
    exact siteStep_updateColumns _ fun _ => ⟨rfl, rfl, rfl⟩
  | unblockUser user =>
    refine minds_each (Code.each_bind (Code.each_query SiteStep.refl _) fun a => ?_)
    exact siteStep_updateColumns _ fun _ => ⟨rfl, rfl, rfl⟩
  | authenticateOrCreate id phoneNumber role now => cases h
  | service op => cases h

/-- the user whom a sign-in returns: whose phone number it is, and who was let in -/
structure SignedIn (phoneNumber : String) (r : Account × Bool) (s : Site) : Prop where
  user : s.identity r.1.id = some (phoneNumber, r.1.role)
  phone : r.1.phoneNumber = phoneNumber
  known : r.2 = false → r.1.isActive = true ∧ r.1.isBlocked = false

theorem minds_create (id : Pk) (phoneNumber role : String) (now : Time) :
    Minds E (· = phoneNumber) may
      (fun r s => s.identity r.1.id = some (phoneNumber, r.1.role) ∧ r.1.phoneNumber = phoneNumber)
      (Account.create id phoneNumber role now) s := by
  apply Code.assures_act SiteStep.refl
  intro s' x _ hs h
  split at h
  · rename_i a hfound
    cases h
    obtain ⟨hfind, hphone⟩ := byPhone_some hfound
    have huser := identity_of_find hfind
    rw [hphone] at huser
    exact ⟨hs, SiteStep.refl s', huser, hphone⟩
  · rename_i hfree
    split_ifs at h with hok
    cases h
    have hstep : SiteStep E (· = phoneNumber) may s'
        ⟨s'.accounts.insert (newAccount id phoneNumber role now), joined s'.db id role⟩ :=
      .joins id phoneNumber role now rfl hfree hok.2 rfl
    refine ⟨hstep.law hs, hstep, ?_, rfl⟩
    exact (identity_insert hok.2 _ id).trans (if_pos rfl)

theorem minds_getOrCreate (id : Pk) (phoneNumber : String) (role : Json) (now : Time) :
    Minds E (· = phoneNumber) may
      (fun r s => s.identity r.1.id = some (phoneNumber, r.1.role) ∧ r.1.phoneNumber = phoneNumber)
      (Account.getOrCreateRaw E id phoneNumber role now) s := by
  have hfound : ∀ {s' : Site} {a : Account}, Account.byPhone s' phoneNumber = some a →
      s'.identity a.id = some (phoneNumber, a.role) ∧ a.phoneNumber = phoneNumber := by
    intro s' a h
    obtain ⟨hfind, hphone⟩ := byPhone_some h
    have huser := identity_of_find hfind
    rw [hphone] at huser
    exact ⟨huser, hphone⟩
  refine Code.assures_bind (P := fun found s => ∀ a, found = some a →
    s.identity a.id = some (phoneNumber, a.role) ∧ a.phoneNumber = phoneNumber) ?_ fun found s' h => ?_
  · apply Code.assures_query SiteStep.refl
    intro s' found _ _ h a ha
    cases h
    exact hfound ha
  · cases found with
    | some a => exact h a rfl
    | none =>
      change Minds E _ _ _ (Account.createRaw E id phoneNumber role now) s'
      unfold Account.createRaw
      cases roleColumn E.py role with
      | none =>
        apply Code.assures_query SiteStep.refl
        intro s'' r _ _ hr
        split at hr
        · rename_i a ha
          cases hr
          exact hfound ha
        · cases hr
      | some text =>
        dsimp only
        split_ifs
        · trivial
        · trivial
        · exact minds_create id phoneNumber text now

/-- **A sign-in** returns a user with the phone number, whom it lets in; the only user who may join is this one. -/
theorem assures_authenticateOrCreate (id : Pk) (phoneNumber : String) (role : Json) (now : Time) :
    Minds E (· = phoneNumber) may (SignedIn phoneNumber) (AuthService.authenticateOrCreateRaw E id phoneNumber role now)
      s := by
  refine Code.assures_bind (minds_getOrCreate id phoneNumber role now) fun r s₁ hr => ?_
  obtain ⟨user, created⟩ := r
  refine Code.assures_bind (P := fun _ s => ¬ (¬ created ∧ user.isBlocked) ∧
    s.identity user.id = some (phoneNumber, user.role)) (Code.assures_raiseIf fun h => ⟨h, hr.1⟩) fun _ s₂ h₂ => ?_
  refine Code.assures_bind (P := fun _ s => ¬ (¬ created ∧ ¬ user.isActive) ∧
    s.identity user.id = some (phoneNumber, user.role)) (Code.assures_raiseIf fun h => ⟨h, h₂.2⟩) fun _ s₃ h₃ => ?_
  refine Code.assures_bind (P := fun _ s => s.identity user.id = some (phoneNumber, user.role)) ?_ fun _ s₄ h₄ => ?_
  · apply Code.assures_act SiteStep.refl
    intro s' x hkept hs h
    split at h
    · cases h
    · cases h
      have hstep : SiteStep E (· = phoneNumber) may s'
          { s' with accounts := s'.accounts.update user.id fun r => { r with lastSeen := some now } } :=
        .same (identity_update s' user.id fun _ _ => ⟨rfl, rfl, rfl⟩) rfl
      exact ⟨hstep.law hs, hstep, hstep.kept _ _ (hkept.people _ _ h₃.2)⟩
  · refine ⟨h₄, hr.2, fun hold => ?_⟩
    have hcreated : created = false := hold
    have hblocked := h₂.1
    have hactive := h₃.1
    rw [hcreated] at hblocked hactive
    simpa using And.intro hactive hblocked

end Calls

end GigMarketplace
