/-
# PolicyClient.Error -- why a check has no answer

An `Error` names the cause; `Error.message` is its wording.  Every error has a kind, and
the kind alone decides what a session does with it: a transient failure is sent again
(`isRetryable`), a fatal one closes the session (`isFatal`), all others end the check
they belong to.
-/
import PolicyClient.Duration
import PolicyClient.Ids

namespace PolicyClient

set_option autoImplicit false

/-! ## Status codes -/

/-- The status codes of a remote call. -/
inductive StatusCode
  | ok | cancelled | unknown | invalidArgument | deadlineExceeded | notFound | alreadyExists
  | permissionDenied | resourceExhausted | failedPrecondition | aborted | outOfRange
  | unimplemented | internal | unavailable | dataLoss | unauthenticated
deriving DecidableEq, Inhabited, Repr

namespace StatusCode

/-- All codes, in the order of their numbers. -/
def all : List StatusCode := [ok, cancelled, unknown, invalidArgument, deadlineExceeded, notFound,
  alreadyExists, permissionDenied, resourceExhausted, failedPrecondition, aborted, outOfRange,
  unimplemented, internal, unavailable, dataLoss, unauthenticated]

/-- The code with this number; numbers without a code mean `unknown`. -/
def ofNumber (n : Int) : StatusCode :=
  if 0 ≤ n then all.getD n.toNat unknown else unknown

def number (c : StatusCode) : Nat := all.idxOf c

def name : StatusCode → String
  | ok => "Ok"
  | cancelled => "Cancelled"
  | unknown => "Unknown"
  | invalidArgument => "InvalidArgument"
  | deadlineExceeded => "DeadlineExceeded"
  | notFound => "NotFound"
  | alreadyExists => "AlreadyExists"
  | permissionDenied => "PermissionDenied"
  | resourceExhausted => "ResourceExhausted"
  | failedPrecondition => "FailedPrecondition"
  | aborted => "Aborted"
  | outOfRange => "OutOfRange"
  | unimplemented => "Unimplemented"
  | internal => "Internal"
  | unavailable => "Unavailable"
  | dataLoss => "DataLoss"
  | unauthenticated => "Unauthenticated"

end StatusCode

/-! ## Causes -/

/-- What is wrong with an argument. -/
inductive Invalid
  | emptyPrincipalId
  | noRoles (principal : String)
  | emptyRole
  | emptyResourceKind
  | emptyResourceId
  | emptyAction
  | emptyToken
  | noActions (kind id : String)
  | duplicateAction (action : String)
  | batchSizeZero
  | batchBytesZero
  | flushIntervalZero
  | requestTimeoutZero
  | failureLimitZero
  | backoffInitialAboveMax
  | backoffMultiplier
  | backoffJitter
  | cacheTtlZero
  | cacheCapacityZero
  | headerName (name : String)
  | headerValue (name : String)
  | endpointUri
  | endpoint
  | plaintextRemote (endpoint : String)
  | noRuntime
  | blockingInsideRuntime
  | blockingOnOneThread
  | reported (detail : String)
deriving DecidableEq, Inhabited, Repr

def Invalid.message : Invalid → String
  | emptyPrincipalId => "principal id must not be empty"
  | noRoles principal => "principal '" ++ principal ++ "' must have at least one role"
  | emptyRole => "role names must not be empty"
  | emptyResourceKind => "resource kind must not be empty"
  | emptyResourceId => "resource id must not be empty"
  | emptyAction => "action must not be empty"
  | emptyToken => "JWT must not be empty"
  | noActions kind id => "no actions given for resource " ++ kind ++ ":" ++ id
  | duplicateAction action => "duplicate action '" ++ action ++ "'"
  | batchSizeZero => "max_batch_size must be at least 1"
  | batchBytesZero => "max_batch_bytes must be at least 1"
  | flushIntervalZero => "flush_interval must be positive"
  | requestTimeoutZero => "request_timeout must be positive"
  | failureLimitZero => "max_consecutive_failures must be at least 1"
  | backoffInitialAboveMax => "backoff initial delay must not exceed max delay"
  | backoffMultiplier => "backoff multiplier must be a finite number >= 1"
  | backoffJitter => "backoff jitter must be within 0..=1"
  | cacheTtlZero => "cache ttl must be positive"
  | cacheCapacityZero => "cache max_capacity must be at least 1"
  | headerName name => "invalid metadata key '" ++ name ++ "'"
  | headerValue name => "invalid value for metadata '" ++ name ++ "'"
  | endpointUri => "invalid endpoint URI"
  | endpoint => "invalid endpoint: invalid URI"
  | plaintextRemote address => "insecure connection to non-loopback address '" ++ address ++
      "' requires .insecure(true) on the builder. Use https:// for production."
  | noRuntime => "a client must be created inside a Tokio runtime"
  | blockingInsideRuntime =>
      "check_blocking cannot be called from within an async runtime; use check_async"
  | blockingOnOneThread => "check_blocking requires a client built on a multi-thread runtime"
  | reported detail => detail

/-- How an answer fails to match what was asked. -/
inductive Violation
  /-- The reply stream ended without an answer to this check. -/
  | unanswered (token : Token)
  /-- The response names another request. -/
  | foreignEcho (echoed expected : String)
  /-- A result about one resource stands in the slot of another. -/
  | misplaced (kind id expectedKind expectedId : String)
  | reported (detail : String)
deriving DecidableEq, Inhabited, Repr

def Violation.message : Violation → String
  | unanswered token => "no result received for " ++ token.text
  | foreignEcho echoed expected =>
      "response echoed request id '" ++ echoed ++ "', expected '" ++ expected ++ "'"
  | misplaced kind id expectedKind expectedId =>
      "result for " ++ kind ++ ":" ++ id ++ " in the slot of " ++ expectedKind ++ ":" ++ expectedId
  | reported detail => detail

/-! ## Errors -/

/-- Why a check ended without a result. -/
inductive Error
  | invalidArgument (cause : Invalid)
  | transport (detail : String)
  | status (code : StatusCode) (detail : String)
  | deadlineExceeded (after : Duration)
  /-- Every attempt the retry budget allows has failed, the last one with `last`. -/
  | unavailable (attempts : Nat) (last : Error)
  | fatal (detail : String)
  | protocolViolation (cause : Violation)
  | sessionClosed (reason : String)
  | cancelled
  | timeout (after : Duration)
  | serialization (detail : String)
deriving DecidableEq, Inhabited, Repr

/-- The classes of errors. -/
inductive ErrorKind
  | validation
  | transient
  | fatal
  | protocol
  | rejected
  | caller
deriving DecidableEq, Inhabited, Repr

namespace Error

def message : Error → String
  | invalidArgument cause => "invalid argument: " ++ cause.message
  | transport detail => "transport error: " ++ detail
  | status code detail => "Cerbos error (" ++ code.name ++ "): " ++ detail
  | deadlineExceeded after => "deadline of " ++ after.text ++ " exceeded"
  | unavailable attempts last =>
      "service unavailable after " ++ toString attempts ++ " attempts: " ++ last.message
  | fatal detail => "fatal transport error: " ++ detail
  | protocolViolation cause => "protocol violation: " ++ cause.message
  | sessionClosed reason => "session closed: " ++ reason ++ "; build a new client to continue"
  | cancelled => "check cancelled"
  | timeout after => "no decision within " ++ after.text
  | serialization detail => "serialization error: " ++ detail

/-- The class of an error.  Of the status codes those that may pass on their own are
transient, those that refuse this client altogether are fatal. -/
def kind : Error → ErrorKind
  | invalidArgument _ => .validation
  | transport _ | deadlineExceeded _ | unavailable _ _ => .transient
  | status code _ =>
    match code with
    | .unavailable | .deadlineExceeded | .resourceExhausted | .aborted => .transient
    | .unauthenticated | .permissionDenied | .unimplemented => .fatal
    | _ => .rejected
  | fatal _ => .fatal
  | protocolViolation _ | serialization _ => .protocol
  | sessionClosed _ | cancelled | timeout _ => .caller

/-- Whether sending again may help.  `unavailable` is what is left after sending again,
so it is transient but not retried. -/
def isRetryable : Error → Bool
  | unavailable _ _ => false
  | e => e.kind = .transient

/-- Whether the session cannot go on. -/
def isFatal (e : Error) : Bool := e.kind = .fatal

/-- The status code, of an error that is a status. -/
def code? : Error → Option StatusCode
  | status code _ => some code
  | _ => none

/-- Whether the error suggests that the connection is broken. -/
def connectionLost : Error → Bool
  | transport _ => true
  | e => e.code? = some .unavailable

/-- The error of a remote call that ended with a status.  A service without the method
at `path` can never serve this client. -/
def ofCallStatus (path : String) (code : StatusCode) (detail : String) : Error :=
  if code = .unimplemented then fatal ("PDP does not serve " ++ path ++ ": " ++ detail)
  else status code detail

end Error

/-- A chain that comes out well came out well before each link. -/
theorem ok_of_bind {ε α β : Type} {x : Except ε α} {f : α → Except ε β} {b : β} (h : x >>= f = .ok b) :
    ∃ a, x = .ok a ∧ f a = .ok b := by
  cases x with
  | error e => cases h
  | ok a => exact ⟨a, rfl, h⟩

end PolicyClient
