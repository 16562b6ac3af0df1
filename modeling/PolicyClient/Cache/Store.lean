/-
# PolicyClient.Cache.Store -- remembered decisions

A cache of decisions stores each with its time to live, and that is all that its hooks go by
(`perEntryTtl`): a decision counts for so long from when it was stored, storing another in its
place starts anew, and reading prolongs nothing.

`DecisionCache` is over any library of caches.  What runs is over the one of
`PolicyClient.Cache.Lru` (`DecisionStore`).
-/
import PolicyClient.Cache.Lru
import PolicyClient.Check.Answer
import PolicyClient.Config.Basic

namespace PolicyClient

set_option autoImplicit false

/-- A decision, and how long it counts from when it is stored. -/
structure Entry where
  decision : Decision
  ttl : Duration
deriving DecidableEq, Inhabited, Repr

/-- Each entry counts for its own time to live. -/
def perEntryTtl {κ : Type} : Expiry κ Entry where
  afterCreate _ entry _ := some entry.ttl
  afterUpdate _ entry _ _ := some entry.ttl

/-- Decisions in a cache of type `σ`. -/
structure DecisionCache (σ : Type) where
  cache : σ
  /-- How long a decision counts if nothing else is said. -/
  ttl : Duration
deriving Inhabited

namespace DecisionCache

variable {σ κ : Type} [CacheLibrary σ (perEntryTtl : Expiry κ Entry)]

def ofConfig (c : CacheConfig) : DecisionCache σ where
  cache := CacheLibrary.build c.capacity
  ttl := c.ttl

/-- The decision under `key`, if its time has not passed. -/
def get? (s : DecisionCache σ) (key : κ) : Option Decision × DecisionCache σ :=
  let (found, cache) := CacheLibrary.get s.cache key
  (found.map Entry.decision, { s with cache })

/-- Stores a decision for the span `ttl`. -/
def put (s : DecisionCache σ) (key : κ) (decision : Decision) (ttl : Duration) : DecisionCache σ :=
  { s with cache := CacheLibrary.insert s.cache key ⟨decision, ttl⟩ }

/-- Stores a decision for the span that the cache was set up with. -/
def putDefault (s : DecisionCache σ) (key : κ) (decision : Decision) : DecisionCache σ :=
  s.put key decision s.ttl

/-- Has the cache do what it has put off. -/
def sync (s : DecisionCache σ) : DecisionCache σ :=
  { s with cache := CacheLibrary.maintain s.cache }

/-- How many entries are held. -/
def size (s : DecisionCache σ) : Nat := CacheLibrary.count s.cache

/-- Lets time pass. -/
def advance (s : DecisionCache σ) (d : Duration) : DecisionCache σ :=
  { s with cache := CacheLibrary.pass s.cache d }

def debugText (s : DecisionCache σ) : String :=
  "DecisionCache \x7b ttl: " ++ s.ttl.text ++ ", entry_count: " ++ toString s.size ++ " \x7d"

end DecisionCache

/-- The decisions that a session remembers. -/
abbrev DecisionStore (κ : Type) := DecisionCache (LruStore (perEntryTtl : Expiry κ Entry))

namespace DecisionCache

variable {κ : Type} [DecidableEq κ]

/-- Upkeep of the cache that runs, which drops anything but `spared`. -/
def tidy (s : DecisionStore κ) (spared : Option κ) : DecisionStore κ :=
  { s with cache := s.cache.tidy spared }

end DecisionCache

/-- What one thing done after another takes at the least: a decision that lives no longer is
never found again. -/
def DecisionStore.workTime : Duration := .ofParts 0 1000

end PolicyClient
