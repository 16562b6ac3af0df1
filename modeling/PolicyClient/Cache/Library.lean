/-
# PolicyClient.Cache.Library -- what a library of bounded caches offers

A cache holds values under keys, up to a number of them, and each until a time of its own.
When that is the cache does not know: it asks hooks (`Expiry`), once when a value is stored
where nothing was, once when one is replaced, and at every look-up that finds one.  Each is
told how long the entry would still count, and says how long it is to count from now on.

Caches come from elsewhere.  What is used of them is a class of operations (`CacheLibrary`),
so that what is built on a cache is built on any.
-/
import PolicyClient.Duration

namespace PolicyClient

set_option autoImplicit false

/-- A value under a key, since when it is there, and until when it counts: for ever, if
nothing is said. -/
structure Held (ν : Type) where
  value : ν
  written : Instant
  expires : Option Instant
deriving DecidableEq, Inhabited, Repr

namespace Held

variable {ν : Type}

/-- Whether the value still counts. -/
def isFresh (h : Held ν) (now : Instant) : Bool := h.expires.all fun time => decide (now < time)

/-- How long the value will still count, if there is an end to it. -/
def remaining (h : Held ν) (now : Instant) : Option Duration := h.expires.map fun time => time - now

end Held

/-- The hooks that say how long an entry counts from now on: for ever, if they say nothing.
One that is not given changes nothing. -/
structure Expiry (κ ν : Type) where
  /-- A value has been stored where nothing was. -/
  afterCreate (key : κ) (value : ν) (now : Instant) : Option Duration := none
  /-- An entry written at `written` has been found. -/
  afterRead (key : κ) (value : ν) (now : Instant) (remaining : Option Duration)
    (written : Instant) : Option Duration := remaining
  /-- A value has been stored in place of another. -/
  afterUpdate (key : κ) (value : ν) (now : Instant) (remaining : Option Duration) :
    Option Duration := remaining

namespace Expiry

variable {κ ν : Type}

/-- What is held once `value` has been stored where nothing was. -/
def create (e : Expiry κ ν) (key : κ) (value : ν) (now : Instant) : Held ν where
  value
  written := now
  expires := (e.afterCreate key value now).map fun ttl => now + ttl

/-- What is held once `value` has been stored in place of `old`. -/
def update (e : Expiry κ ν) (key : κ) (value : ν) (now : Instant) (old : Held ν) : Held ν where
  value
  written := now
  expires := (e.afterUpdate key value now (old.remaining now)).map fun ttl => now + ttl

/-- What is held once `found` has been found. -/
def read (e : Expiry κ ν) (key : κ) (now : Instant) (found : Held ν) : Held ν :=
  { found with
    expires := (e.afterRead key found.value now (found.remaining now) found.written).map
      fun ttl => now + ttl }

end Expiry

/-- Caches of type `σ`, which hold values of type `ν` under keys of type `κ` and ask the
hooks `expiry`. -/
class CacheLibrary (σ : Type) {κ ν : outParam Type} (expiry : outParam (Expiry κ ν)) where
  /-- A cache with room for so many entries.  Those used least recently go first. -/
  build (capacity : Nat) : σ
  /-- Looks a key up. -/
  get (cache : σ) (key : κ) : Option ν × σ
  /-- Stores a value under a key, in place of what was there. -/
  insert (cache : σ) (key : κ) (value : ν) : σ
  /-- Does the work that the cache has put off. -/
  maintain (cache : σ) : σ
  /-- How many entries are held. -/
  count (cache : σ) : Nat
  /-- Time passes. -/
  pass (cache : σ) (time : Duration) : σ

end PolicyClient
