/-
# PolicyClient.Cache.Lru -- the cache that runs

A cache that drops what was used least recently.  An entry past its time gives no answer, but
keeps its place until it is dropped or replaced.

It does not look after its size at every step.  It notes down what is looked up and what is
stored, and upkeep is due once one of the two logs is `LruStore.logLimit` long.  Upkeep
(`LruStore.tidy`) brings the order of use up to date, by the look-ups first and then by what
was stored, and drops the entries used least recently beyond the capacity.  So a cache that is
tidied after every step is never larger than its capacity, and any other is larger by at most
what its log holds.

It has a clock of its own, moved by `advance`.  The clock is cut into spans of
`LruStore.sweepSpan`, and the first upkeep in a new span also drops the entries that are past
their time.
-/
import PolicyClient.Cache.Library

namespace PolicyClient

set_option autoImplicit false

variable {κ ν : Type}

/-- Values under keys, with the hooks `expiry`. -/
structure LruStore (expiry : Expiry κ ν) where
  capacity : Nat
  now : Instant := .zero
  /-- What is held, each key once. -/
  entries : List (κ × Held ν) := []
  /-- The keys known to the last upkeep, those used least recently first. -/
  order : List κ := []
  /-- The look-ups since then: the key of one that found something. -/
  lookups : List (Option κ) := []
  /-- The keys stored since then. -/
  puts : List κ := []
  /-- When that was. -/
  tidied : Instant := .zero
deriving Inhabited

namespace LruStore

variable {expiry : Expiry κ ν} [DecidableEq κ]

/-! ## What is held -/

/-- What is held under `key`, past its time or not. -/
def held? (s : LruStore expiry) (key : κ) : Option (Held ν) :=
  (s.entries.find? fun e => e.1 = key).map (·.2)

/-- What is held under `key`, if its time has not passed. -/
def fresh? (s : LruStore expiry) (key : κ) : Option (Held ν) :=
  (s.held? key).filter fun h => h.isFresh s.now

/-- Whether what is held under `key` is past its time. -/
def isStale (s : LruStore expiry) (key : κ) : Bool :=
  s.entries.any fun e => e.1 = key && !e.2.isFresh s.now

/-- Holds this under `key` in place of what was there. -/
def hold (s : LruStore expiry) (key : κ) (h : Held ν) : LruStore expiry :=
  { s with entries := (key, h) :: s.entries.filter fun e => e.1 ≠ key }

/-- Holds this under `key` if anything was there. -/
def renew (s : LruStore expiry) (key : κ) (h : Held ν) : LruStore expiry :=
  { s with entries := s.entries.map fun e => if e.1 = key then (key, h) else e }

/-! ## Upkeep -/

/-- How long a log grows before upkeep is due. -/
def logLimit : Nat := 64

/-- Makes `key` the one used most recently. -/
def touch (order : List κ) (key : κ) : List κ := order.filter (· ≠ key) ++ [key]

/-- A look-up is a use of what upkeep knows already.  What is in the log of puts comes later
anyway. -/
def touchKnown (order : List κ) (key : κ) : List κ := if key ∈ order then touch order key else order

/-- The order of use with both logs taken in. -/
def uses (s : LruStore expiry) : List κ :=
  s.puts.foldl touch ((s.lookups.filterMap id).foldl touchKnown s.order)

/-- The length of the spans that the clock is cut into, in nanoseconds. -/
def sweepSpan : Nat := Nat.pow 2 30

/-- Whether a new span has begun since the last upkeep. -/
def sweepDue (s : LruStore expiry) : Bool :=
  s.tidied.nanos / sweepSpan < s.now.nanos / sweepSpan

/-- Takes the logs in and drops what is past its time, if a sweep is due, and then what is
beyond the capacity, but never `spared`. -/
def tidy (s : LruStore expiry) (spared : Option κ) : LruStore expiry :=
  let uses := s.uses
  let others := uses.filter fun key => some key ≠ spared
  let stale := if s.sweepDue then others.filter s.isStale else []
  let surplus := (others.filter (· ∉ stale)).take (uses.length - stale.length - s.capacity)
  let dropped := stale ++ surplus
  { s with
    entries := s.entries.filter fun e => e.1 ∉ dropped
    order := uses.filter (· ∉ dropped)
    lookups := []
    puts := []
    tidied := s.now }

/-! ## Use -/

/-- Looks `key` up.  Upkeep that is due comes after the look-up and before it is noted. -/
def get (s : LruStore expiry) (key : κ) : Option ν × LruStore expiry :=
  let found := s.fresh? key
  let s := found.elim s fun h => s.renew key (expiry.read key s.now h)
  let s := if s.lookups.length < logLimit then s else s.tidy none
  (found.map Held.value, { s with lookups := s.lookups ++ [found.map fun _ => key] })

/-- What is held under `key` once `value` has been stored there. -/
def stored (s : LruStore expiry) (key : κ) (value : ν) : Held ν :=
  match s.held? key with
  | none => expiry.create key value s.now
  | some old => expiry.update key value s.now old

/-- Stores a value.  Upkeep that is due comes before it is noted, and spares it.  A cache
without capacity holds nothing. -/
def insert (s : LruStore expiry) (key : κ) (value : ν) : LruStore expiry :=
  if s.capacity = 0 then s
  else
    let s := s.hold key (s.stored key value)
    let s := if s.puts.length < logLimit then s else s.tidy (some key)
    { s with puts := s.puts ++ [key] }

/-- How many entries are held. -/
def size (s : LruStore expiry) : Nat := s.entries.length

/-- Lets time pass. -/
def advance (s : LruStore expiry) (d : Duration) : LruStore expiry := { s with now := s.now + d }

instance : CacheLibrary (LruStore expiry) expiry where
  build capacity := { capacity }
  get := get
  insert := insert
  maintain s := s.tidy none
  count := size
  pass := advance

end LruStore

end PolicyClient
