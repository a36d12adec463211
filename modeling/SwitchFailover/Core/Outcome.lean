import Mathlib

/-!
# Outcome codes and status values

Every fallible function of the runtime reports one of the codes below with a
bounded explanation.  Text is kept as the byte string the program stores: reason
texts travel through digests, records and length limits, so only their bytes
matter.
-/

namespace SwitchFailover.Core

abbrev Bytes := List UInt8

variable {message : Bytes}

/-- The byte string of a literal of the source. -/
def text (literal : String) : Bytes := literal.toUTF8.toList

/-- `std::to_string` of an unsigned value. -/
def decimal (value : ℕ) : Bytes :=
  (Nat.toDigits 10 value).map fun digit => digit.toNat.toUInt8

inductive Code
  | ok | unknown | stale | conflict | invalid | unsupported | indeterminate
  | searchLimitReached | provenInfeasible
  | denied | unauthorized | fenced | interrupted | ambiguous
  | notFound | alreadyExists | exhausted | busy | closed
  | corrupt | truncated | replay | versionMismatch | ioError | deadlineExceeded
  | unverified | partialClosure | expired
  deriving DecidableEq, Repr

variable {code : Code}

def Code.toText : Code → Bytes
  | .ok => text "OK"
  | .unknown => text "UNKNOWN"
  | .stale => text "STALE"
  | .conflict => text "CONFLICT"
  | .invalid => text "INVALID"
  | .unsupported => text "UNSUPPORTED"
  | .indeterminate => text "INDETERMINATE"
  | .searchLimitReached => text "SEARCH_LIMIT_REACHED"
  | .provenInfeasible => text "PROVEN_INFEASIBLE"
  | .denied => text "DENIED"
  | .unauthorized => text "UNAUTHORIZED"
  | .fenced => text "FENCED"
  | .interrupted => text "INTERRUPTED"
  | .ambiguous => text "AMBIGUOUS"
  | .notFound => text "NOT_FOUND"
  | .alreadyExists => text "ALREADY_EXISTS"
  | .exhausted => text "EXHAUSTED"
  | .busy => text "BUSY"
  | .closed => text "CLOSED"
  | .corrupt => text "CORRUPT"
  | .truncated => text "TRUNCATED"
  | .replay => text "REPLAY"
  | .versionMismatch => text "VERSION_MISMATCH"
  | .ioError => text "IO_ERROR"
  | .deadlineExceeded => text "DEADLINE_EXCEEDED"
  | .unverified => text "UNVERIFIED"
  | .partialClosure => text "PARTIAL_CLOSURE"
  | .expired => text "EXPIRED"

def Code.raw (code : Code) : UInt16 := code.ctorIdx.toUInt16

/-- The code of a number, if the number is assigned. -/
def Code.ofRaw (raw : UInt16) : Option Code :=
  [Code.ok, .unknown, .stale, .conflict, .invalid, .unsupported, .indeterminate,
    .searchLimitReached, .provenInfeasible, .denied, .unauthorized, .fenced, .interrupted,
    .ambiguous, .notFound, .alreadyExists, .exhausted, .busy, .closed, .corrupt, .truncated,
    .replay, .versionMismatch, .ioError, .deadlineExceeded, .unverified, .partialClosure,
    .expired][raw.toNat]?

theorem Code.ofRaw_eq_some {raw : UInt16} : Code.ofRaw raw = some code ↔ raw = code.raw := by
  constructor
  · intro hcode
    obtain ⟨hlength, hget⟩ := List.getElem?_eq_some_iff.mp hcode
    have hlt : raw.toNat < 28 := hlength
    have hraw : raw = UInt16.ofNat raw.toNat := (UInt16.ofNat_toNat).symm
    generalize raw.toNat = index at hlength hget hlt hraw
    subst hraw
    interval_cases index <;> (rw [← hget]; rfl)
  · rintro rfl
    cases code <;> rfl

def maxMessageBytes : ℕ := 512

def boundedMessage (message : Bytes) : Bytes := message.take maxMessageBytes

theorem boundedMessage_of_le (hlength : message.length ≤ maxMessageBytes) :
    boundedMessage message = message :=
  List.take_of_length_le hlength

theorem boundedMessage_boundedMessage (message : Bytes) :
    boundedMessage (boundedMessage message) = boundedMessage message := by
  rw [boundedMessage, boundedMessage, List.take_take, min_self]

structure Status where
  code : Code
  message : Bytes
  deriving DecidableEq

variable {status : Status}

def Status.success : Status := ⟨.ok, []⟩

def Status.isOk (status : Status) : Bool := status.code == .ok

/-- A failure never carries the affirmative code, even when asked to. -/
def Status.failure (code : Code) (message : Bytes) : Status where
  code := if code = .ok then .invalid else code
  message := boundedMessage message

def Status.toText (status : Status) : Bytes :=
  status.code.toText ++
    if status.message.isEmpty then [] else text " " ++ status.message

theorem Status.failure_not_isOk (code : Code) (message : Bytes) :
    (Status.failure code message).isOk = false := by
  by_cases hcode : code = .ok <;> simp [Status.failure, Status.isOk, hcode]

abbrev Result (Value : Type*) := Except Status Value

theorem result_bind_eq_ok {A B : Type} {first : Result A} {next : A → Result B} {value : B} :
    (first >>= next) = .ok value ↔ ∃ middle, first = .ok middle ∧ next middle = .ok value := by
  cases first with
  | error status => simp [bind, Except.bind]
  | ok middle => simp [bind, Except.bind]

/-- A result together with the fact that it was produced. -/
def attach {A : Type} (result : Result A) : Result { value : A // result = .ok value } :=
  match result with
  | .ok value => .ok ⟨value, rfl⟩
  | .error status => .error status

/-- Refusal of a function that returns a `Result`. -/
def refuse {Value : Type*} (code : Code) (message : Bytes) : Result Value :=
  .error (Status.failure code message)

/-- An early exit: refuse unless the condition holds. -/
def require (condition : Bool) (code : Code) (message : Bytes) : Result Unit :=
  if condition then .ok () else refuse code message

@[simp]
theorem require_eq_ok (condition : Bool) (code : Code) (message : Bytes) (value : Unit) :
    require condition code message = .ok value ↔ condition = true := by
  cases condition <;> simp [require, refuse]

/-- A refusal never carries the affirmative code. -/
theorem require_eq_error {condition : Bool}
    (herror : require condition code message = .error status) : status.isOk = false := by
  cases condition with
  | true => cases herror
  | false =>
    cases herror
    exact Status.failure_not_isOk code message

theorem ok_of_toOption {A : Type} {result : Result A} {value : A}
    (hresult : result.toOption = some value) : result = .ok value := by
  cases result with
  | error status => cases hresult
  | ok other => rw [Option.some.inj hresult]

theorem ok_of_toBool {A : Type} {result : Result A} (hok : result.toBool = true) (fallback : A) :
    result = .ok (result.toOption.getD fallback) := by
  cases result with
  | error status => cases hok
  | ok value => rfl

theorem attach_of_eq_ok {A : Type} {result : Result A} {value : A}
    (hresult : result = .ok value) : attach result = .ok ⟨value, hresult⟩ := by
  subst hresult
  rfl

theorem result_bind_eq_error {A B : Type} {first : Result A} {next : A → Result B}
    (herror : (first >>= next) = .error status) :
    first = .error status ∨ ∃ middle, first = .ok middle ∧ next middle = .error status := by
  cases first with
  | error refused =>
    cases herror
    exact Or.inl rfl
  | ok middle => exact Or.inr ⟨middle, rfl, herror⟩

/-- A sequence of checks passes exactly when each of them does. -/
theorem forM_eq_ok {A : Type} {check : A → Result Unit} {values : List A} :
    values.forM check = .ok () ↔ ∀ value ∈ values, check value = .ok () := by
  induction values with
  | nil => simp [pure, Except.pure]
  | cons value rest ih =>
    rw [List.forM_eq_forM] at ih
    rw [List.forM_eq_forM, List.forM_cons, result_bind_eq_ok, List.forall_mem_cons, ← ih]
    constructor
    · intro ⟨_, hvalue, hrest⟩
      exact ⟨hvalue, hrest⟩
    · intro ⟨hvalue, hrest⟩
      exact ⟨(), hvalue, hrest⟩

/-- `refuse_exhausted`. -/
def refuseExhausted (what : Bytes) (requested limit : ℕ) : Status :=
  Status.failure .exhausted
    (what ++ text ": requested " ++ decimal requested ++ text " exceeds limit " ++
      decimal limit)

def requireWithin (what : Bytes) (requested limit : ℕ) : Result Unit :=
  if requested > limit then .error (refuseExhausted what requested limit) else .ok ()

@[simp]
theorem requireWithin_eq_ok (what : Bytes) (requested limit : ℕ) (value : Unit) :
    requireWithin what requested limit = .ok value ↔ requested ≤ limit := by
  by_cases hover : requested > limit
  · simp [requireWithin, hover]
  · simp [requireWithin, hover, not_lt.mp hover]

end SwitchFailover.Core
