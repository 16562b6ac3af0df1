/-
# PolicyClient.Config.Document -- settings as a document

Settings may come as a structured document.  Reading is strict: a name that is no setting,
a number outside its range or a fraction where a whole number belongs makes the document
unreadable.  A setting left out keeps its default; only the cache may be null, which
means none.  A list stands for the same fields in the order of their declaration.
-/
import PolicyClient.Check.Answer
import PolicyClient.Config.Basic
import PolicyClient.Document

namespace PolicyClient

set_option autoImplicit false

namespace Document

variable {α : Type}

/-- What `read` makes of a field among `fields`, or `default` if it is left out. -/
def setting? (fields : String → Option Document) (name : String) (default : α)
    (read : Document → Option α) : Option α :=
  match fields name with
  | none => some default
  | some d => read d

end Document

def BackoffConfig.ofDocument? (d : Document) : Option BackoffConfig := do
  let default : BackoffConfig := {}
  let fields ← d.fields? ["initial", "max", "multiplier", "jitter"]
  return {
    initial := ← Document.setting? fields "initial" default.initial Document.duration?
    max := ← Document.setting? fields "max" default.max Document.duration?
    multiplier := ← Document.setting? fields "multiplier" default.multiplier Document.number?
    jitter := ← Document.setting? fields "jitter" default.jitter Document.number? }

def CacheConfig.ofDocument? (d : Document) : Option CacheConfig := do
  let default : CacheConfig := {}
  let fields ← d.fields? ["ttl", "max_capacity"]
  return {
    ttl := ← Document.setting? fields "ttl" default.ttl Document.duration?
    capacity := ← Document.setting? fields "max_capacity" default.capacity (Document.natural? 64) }

/-- A cache; null means none. -/
def CacheConfig.ofOptionalDocument? : Document → Option (Option CacheConfig)
  | .null => some none
  | d => (ofDocument? d).map some

def Config.ofDocument? (d : Document) : Option Config := do
  let default : Config := {}
  let fields ← d.fields? ["max_batch_size", "max_batch_bytes", "flush_interval",
    "request_timeout", "retry_budget", "backoff", "max_consecutive_failures", "cache"]
  let count (name : String) (bits default : Nat) : Option Nat :=
    Document.setting? fields name default (Document.natural? bits)
  let span (name : String) (default : Duration) : Option Duration :=
    Document.setting? fields name default Document.duration?
  return {
    maxBatchSize := ← count "max_batch_size" 64 default.maxBatchSize
    maxBatchBytes := ← count "max_batch_bytes" 64 default.maxBatchBytes
    flushInterval := ← span "flush_interval" default.flushInterval
    requestTimeout := ← span "request_timeout" default.requestTimeout
    retryBudget := ← count "retry_budget" 32 default.retryBudget
    backoff := ← Document.setting? fields "backoff" default.backoff BackoffConfig.ofDocument?
    failureLimit := ← count "max_consecutive_failures" 32 default.failureLimit
    cache := ← Document.setting? fields "cache" default.cache CacheConfig.ofOptionalDocument? }

/-! ## Actions and decisions -/

/-- An action is a text that is not empty. -/
def Action.ofDocument? (d : Document) : Option Action := d.text?.bind Action.ofName?

/-- A decision is its name, alone or as the key of null. -/
def Decision.ofDocument? : Document → Option Decision
  | .text name => ofName? name
  | .object [(name, .null)] => ofName? name
  | _ => none

end PolicyClient
