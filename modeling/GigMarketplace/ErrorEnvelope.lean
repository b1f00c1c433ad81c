/-
custom_exception_handler of `apps/core/exceptions.py`, over the exception handler of Django REST framework.

The detail of an APIException is a tree of lists, dicts and texts (`Detail`). The handler looks at two levels of it: the
first entry of a list; the first value of a dict, and of that, if it is a list, the first entry. A list or a dict that
it finds there it prints (`print`, Python's `str` of it, is a parameter); an empty dict, or an empty list as first
value, makes it raise.

`other` is any other exception, which may happen to have the attributes `default_code` and `detail`. Left out: the log.

Result: `envelope_iff`, exactly when the handler returns an envelope whose message is a leaf of the detail.
-/
import Mathlib.Data.List.Basic

namespace GigMarketplace

/-! ## Details -/

/-- a key of a dict: a field, or the index that ListField gives -/
inductive DetailKey where
  | name (s : String)
  | index (n : ℕ)
deriving DecidableEq, Repr

inductive Detail where
  /-- an ErrorDetail -/
  | text (s : String)
  | list (items : List Detail)
  | dict (fields : List (DetailKey × Detail))

namespace Detail

mutual

/-- the leaf messages, from left to right -/
def leaves : Detail → List String
  | .text s => [s]
  | .list items => leavesOfList items
  | .dict fields => leavesOfFields fields

def leavesOfList : List Detail → List String
  | [] => []
  | d :: items => leaves d ++ leavesOfList items

def leavesOfFields : List (DetailKey × Detail) → List String
  | [] => []
  | (_, d) :: fields => leaves d ++ leavesOfFields fields

end

/-- `str(detail)` -/
def str (print : Detail → String) : Detail → String
  | .text s => s
  | d => print d

def isText : Detail → Bool
  | .text _ => true
  | _ => false

end Detail

/-! ## Exceptions -/

inductive ViewException where
  | api (statusCode : ℕ) (defaultCode : String) (detail : Detail)
  /-- Django's; the argument, if there is one -/
  | http404 (message : Option String)
  | permissionDenied (message : Option String)
  | validationError (str : String)
  | other (str : String) (defaultCode : Option String) (detail : Option Detail)

namespace ViewException

/-- `getattr(exc, "detail", ...)` -/
def detail? : ViewException → Option Detail
  | .api _ _ detail => some detail
  | .other _ _ detail => detail
  | _ => none

def defaultCode? : ViewException → Option String
  | .api _ defaultCode _ => some defaultCode
  | .other _ defaultCode _ => defaultCode
  | _ => none

/-- `str(exc)` -/
def str (print : Detail → String) : ViewException → String
  | .api _ _ detail => detail.str print
  | .http404 message => message.getD ""
  | .permissionDenied message => message.getD ""
  | .validationError s => s
  | .other s _ _ => s

end ViewException

/-- status and data of the Response that DRF's `exception_handler` makes, if it makes one -/
def exceptionHandler : ViewException → Option (ℕ × Detail)
  | .api statusCode _ (.text s) => some (statusCode, .dict [(.name "detail", .text s)])
  | .api statusCode _ detail => some (statusCode, detail)
  | .http404 message => some (404, .dict [(.name "detail", .text (message.getD "Not found."))])
  | .permissionDenied message =>
    some (403, .dict [(.name "detail", .text (message.getD "You do not have permission to perform this action."))])
  | _ => none

/-! ## The handler -/

inductive HandlerError where
  | stopIteration
  | indexError
deriving DecidableEq, Repr

structure ErrorResponse where
  status : ℕ
  success : Bool
  code : String
  message : String
  details : Detail

/-- the response the handler starts from, and the exception it goes on with -/
def startResponse (exc : ViewException) : ℕ × Option Detail × ViewException :=
  match exceptionHandler exc with
  | some (status, data) => (status, some data, exc)
  | none =>
    match exc with
    | .http404 _ => (404, none, .api 404 "not_found" (.text "Resource not found."))
    | .permissionDenied _ => (403, none, .api 403 "forbidden" (.text "Permission denied."))
    | .validationError _ => (400, none, exc)
    | _ => (500, none, exc)

/-- the message, as a text or as what is printed of the detail -/
def errorMessage (print : Detail → String) (exc : ViewException) : Except HandlerError String :=
  match exc.detail? with
  | none => .ok (exc.str print)
  | some (.list []) => .ok (exc.str print)
  | some (.list (d :: _)) => .ok (d.str print)
  -- `next(iter(detail))`
  | some (.dict []) => .error .stopIteration
  -- `first_val[0]`
  | some (.dict ((_, .list []) :: _)) => .error .indexError
  | some (.dict ((_, .list (d :: _)) :: _)) => .ok (d.str print)
  | some (.dict ((_, d) :: _)) => .ok (d.str print)
  | some (.text s) => .ok s

def customExceptionHandler (print : Detail → String) (exc : ViewException) : Except HandlerError ErrorResponse := do
  let (status, data, exc) := startResponse exc
  let message ← errorMessage print exc
  return {
    status := status
    success := false
    code := exc.defaultCode?.getD "error"
    message := message
    details :=
      match data with
      | some (.dict fields) => .dict fields
      | _ => .dict [] }

/-! ## The law -/

/-- the status that DRF chose, or the handler -/
def chosenStatus (exc : ViewException) : ℕ := (startResponse exc).1

/-- an envelope with this status, and with a leaf of the detail as its message, if the detail has one -/
def ProperEnvelope (print : Detail → String) (exc : ViewException) : Prop :=
  ∃ r, customExceptionHandler print exc = .ok r ∧ r.success = false ∧ r.status = chosenStatus exc ∧
    ∀ d, exc.detail? = some d → d.leaves ≠ [] → r.message ∈ d.leaves

/-- an empty dict, or one whose first value is an empty list -/
def Detail.crashes : Detail → Bool
  | .dict [] => true
  | .dict ((_, .list []) :: _) => true
  | _ => false

/-- what the handler takes for the message: on the first level of a list, on the first or second of a dict -/
def Detail.first : Detail → Option Detail
  | .list (d :: _) => some d
  | .dict ((_, .list (d :: _)) :: _) => some d
  | .dict ((_, .list []) :: _) => none
  | .dict ((_, d) :: _) => some d
  | .text s => some (.text s)
  | _ => none

/-- The detail has no leaf, or what the handler takes is a text, or it prints like some leaf by accident. -/
def Detail.Readable (print : Detail → String) (d : Detail) : Prop :=
  d.leaves = [] ∨ ∃ x, d.first = some x ∧ (x.isText ∨ print x ∈ d.leaves)

section

variable {print : Detail → String} {exc : ViewException} {d x : Detail}

/-- the exception that Django's two are replaced by is made for DRF's handler not to have handled them, but it has -/
theorem startResponse_exc (exc : ViewException) : (startResponse exc).2.2 = exc := by
  unfold startResponse
  split
  · rfl
  · rename_i hnone
    cases exc with
    | http404 message => cases hnone
    | permissionDenied message => cases hnone
    | api statusCode defaultCode detail => cases detail <;> cases hnone
    | validationError s => rfl
    | other s defaultCode detail => rfl

/-- the handler makes an envelope of its message, or raises with it -/
theorem handler_eq (print : Detail → String) (exc : ViewException) :
    ∃ details, customExceptionHandler print exc = (errorMessage print exc).map fun message =>
      ⟨chosenStatus exc, false, exc.defaultCode?.getD "error", message, details⟩ := by
  unfold customExceptionHandler chosenStatus
  have hexc := startResponse_exc exc
  generalize startResponse exc = start at hexc
  obtain ⟨status, data, exc'⟩ := start
  obtain rfl : exc' = exc := hexc
  dsimp only
  cases errorMessage print exc' with
  | error e => exact ⟨.dict [], rfl⟩
  | ok message => exact ⟨_, rfl⟩

/-- so all that matters is the message -/
theorem proper_iff_message :
    ProperEnvelope print exc ↔ ∃ message, errorMessage print exc = .ok message ∧
      ∀ d, exc.detail? = some d → d.leaves ≠ [] → message ∈ d.leaves := by
  obtain ⟨details, hcode⟩ := handler_eq print exc
  unfold ProperEnvelope
  rw [hcode]
  cases errorMessage print exc with
  | error e =>
    constructor
    · rintro ⟨r, hr, -⟩
      cases hr
    · rintro ⟨message, hmessage, -⟩
      cases hmessage
  | ok message =>
    constructor
    · rintro ⟨r, hr, -, -, hleaf⟩
      cases hr
      exact ⟨message, rfl, hleaf⟩
    · rintro ⟨message', hmessage, hleaf⟩
      cases hmessage
      exact ⟨_, rfl, rfl, rfl, hleaf⟩

/-- an exception without a detail prints itself -/
theorem message_plain (print : Detail → String) (h : exc.detail? = none) :
    errorMessage print exc = .ok (exc.str print) := by
  unfold errorMessage
  rw [h]

/-- **With a detail**: the handler raises, or shows what it takes, or there is no leaf to show. -/
theorem message_detail (print : Detail → String) (h : exc.detail? = some d) :
    (d.crashes = true ∧ ∃ e, errorMessage print exc = .error e) ∨
      (d.crashes = false ∧ ∃ x, d.first = some x ∧ errorMessage print exc = .ok (x.str print)) ∨
      (d.crashes = false ∧ d.leaves = [] ∧ ∃ message, errorMessage print exc = .ok message) := by
  unfold errorMessage
  rw [h]
  match d with
  | .text s => exact .inr (.inl ⟨rfl, _, rfl, rfl⟩)
  | .list [] => exact .inr (.inr ⟨rfl, rfl, _, rfl⟩)
  | .list (x :: _) => exact .inr (.inl ⟨rfl, x, rfl, rfl⟩)
  | .dict [] => exact .inl ⟨rfl, _, rfl⟩
  | .dict ((_, .text s) :: _) => exact .inr (.inl ⟨rfl, _, rfl, rfl⟩)
  | .dict ((_, .list []) :: _) => exact .inl ⟨rfl, _, rfl⟩
  | .dict ((_, .list (x :: _)) :: _) => exact .inr (.inl ⟨rfl, x, rfl, rfl⟩)
  | .dict ((_, .dict fields) :: _) => exact .inr (.inl ⟨rfl, _, rfl, rfl⟩)

/-- what the handler takes is part of the detail -/
theorem first_leaves (h : d.first = some x) : ∀ s ∈ x.leaves, s ∈ d.leaves := by
  intro s hs
  match d with
  | .text s' =>
    cases h
    exact hs
  | .list [] => cases h
  | .list (y :: items) =>
    cases h
    exact List.mem_append_left _ hs
  | .dict [] => cases h
  | .dict ((_, .text s') :: fields) =>
    cases h
    exact List.mem_append_left _ hs
  | .dict ((_, .list []) :: fields) => cases h
  | .dict ((_, .list (y :: items)) :: fields) =>
    cases h
    exact List.mem_append_left _ (List.mem_append_left _ hs)
  | .dict ((_, .dict inner) :: fields) =>
    cases h
    exact List.mem_append_left _ hs

theorem str_mem_iff (h : d.first = some x) : x.str print ∈ d.leaves ↔ x.isText ∨ print x ∈ d.leaves := by
  cases x with
  | text s =>
    have hmem : s ∈ d.leaves := first_leaves h s (List.mem_singleton_self s)
    exact ⟨fun _ => .inl rfl, fun _ => hmem⟩
  | list items => simp [Detail.str, Detail.isText]
  | dict fields => simp [Detail.str, Detail.isText]

/-- **The handler yields a proper envelope** exactly if it can read what it looks at: an exception without a detail
always, one with a detail if it does not crash on it and if what it takes for the message is a text. -/
theorem envelope_iff (print : Detail → String) (exc : ViewException) :
    ProperEnvelope print exc ↔ ∀ d, exc.detail? = some d → d.crashes = false ∧ d.Readable print := by
  rw [proper_iff_message]
  cases hd : exc.detail? with
  | none => simp [message_plain print hd]
  | some d =>
    simp only [Option.some.injEq, forall_eq']
    rcases message_detail print hd with ⟨hcrash, e, he⟩ | ⟨hsafe, x, hx, hmessage⟩ | ⟨hsafe, hnone, message, hmessage⟩
    · constructor
      · rintro ⟨message, hmessage, -⟩
        cases he.symm.trans hmessage
      · rintro ⟨hsafe, -⟩
        rw [hcrash] at hsafe
        cases hsafe
    · constructor
      · rintro ⟨message, hmessage', hleaf⟩
        cases hmessage.symm.trans hmessage'
        refine ⟨hsafe, ?_⟩
        by_cases hnone : d.leaves = []
        · exact .inl hnone
        · exact .inr ⟨x, hx, (str_mem_iff hx).1 (hleaf hnone)⟩
      · rintro ⟨-, hreadable⟩
        refine ⟨_, hmessage, fun hleaves => ?_⟩
        obtain ⟨x', hx', hmem⟩ := hreadable.resolve_left hleaves
        cases hx.symm.trans hx'
        exact (str_mem_iff hx).2 hmem
    · exact ⟨fun _ => ⟨hsafe, .inl hnone⟩, fun _ => ⟨message, hmessage, fun hleaves => absurd hnone hleaves⟩⟩

end

/-! ## Nested errors -/

/-- what CreateJobSerializer reports of `image_ids`: an error for each index -/
def imageIdsError : Detail :=
  .dict [(.name "image_ids", .dict [(.index 0, .list [.text "Must be a valid UUID."])])]

/-- how Python prints the one dict in it -/
def printedImageIds (_ : Detail) : String :=
  "\x7b0: [ErrorDetail(string='Must be a valid UUID.', code='invalid')]\x7d"

/-- the dict of `image_ids` is printed, and an empty detail makes the handler raise -/
theorem nested_errors_printed :
    ¬ ProperEnvelope printedImageIds (.api 400 "invalid" imageIdsError) ∧
      ¬ ProperEnvelope printedImageIds (.api 400 "invalid" (.dict [])) := by
  constructor
  · rintro ⟨r, hr, -, -, hleaf⟩
    cases hr
    have hmem := hleaf imageIdsError rfl (by decide)
    revert hmem
    decide
  · rintro ⟨r, hr, -⟩
    cases hr

end GigMarketplace
