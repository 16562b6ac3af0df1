/-
# PolicyClient.Proofs.Cache.Account -- what is relied on of a library of caches

Two things are relied on of a cache that does after every access what it has put off
(`CacheLibrary.Kept`).  It applies the hooks that it is given (`AppliesExpiry`): it answers with
what it holds until the time has come that the hooks have said, and holds nothing under a key but
what has been stored there.  And it goes by the order of use (`ExactLru`): whatever is beyond its
capacity it drops, those used least recently first, and other than that only what is past its time.

Both are said of an account of the cache (`Account`): its clock, what it holds under each key, past
its time or not, and its keys in the order of their last use.
-/
import Mathlib.Data.Finset.Card
import Mathlib.Data.List.DropRight
import Mathlib.Data.List.Nodup
import PolicyClient.Proofs.Cache.Lookup

namespace PolicyClient

set_option autoImplicit false

open LruStore (touch)

/-- What is done with a cache. -/
inductive Access (κ ν : Type)
  | get (key : κ)
  | insert (key : κ) (value : ν)
  /-- Time passes. -/
  | pass (time : Duration)

variable {κ ν σ : Type}

/-- How long an access takes. -/
def Access.span : Access κ ν → Duration
  | .pass time => time
  | _ => .zero

namespace CacheLibrary

variable {expiry : Expiry κ ν} [CacheLibrary σ expiry]

/-- An access without the work that it puts off. -/
def access (cache : σ) : Access κ ν → σ
  | .get key => (get cache key).2
  | .insert key value => insert cache key value
  | .pass time => pass cache time

/-- An access, and the work that has been put off. -/
def tend (cache : σ) (x : Access κ ν) : σ := maintain (access cache x)

/-- The caches that a new one becomes if no access leaves work behind. -/
inductive Kept (capacity : Nat) : σ → Prop
  | built : Kept capacity (build capacity)
  | tended {cache : σ} (kept : Kept capacity cache) (x : Access κ ν) : Kept capacity (tend cache x)

end CacheLibrary

/-! ## Accounts -/

/-- What there is to know of a cache. -/
structure Account (κ ν : Type) where
  now : Instant
  /-- What is held under a key, past its time or not. -/
  held : κ → Option (Held ν)
  /-- The keys of what is held, those used least recently first. -/
  order : List κ

namespace Account

/-- What is held under a key, if its time has not passed. -/
def fresh? (a : Account κ ν) (key : κ) : Option (Held ν) := (a.held key).filter fun h => h.isFresh a.now

theorem fresh?_eq_some_iff (a : Account κ ν) (key : κ) (h : Held ν) :
    a.fresh? key = some h ↔ a.held key = some h ∧ h.isFresh a.now = true := by
  rw [fresh?, Option.filter_eq_some_iff]

/-- The key that an access stores or hits. -/
def usedBy (a : Account κ ν) : Access κ ν → Option κ
  | .insert key _ => some key
  | .get key => if (a.fresh? key).isSome then some key else none
  | .pass _ => none

/-- What may be held under `key` after an access: what was held, as long as the access uses another
key or none, and else what the hooks make of it.  A value past its time may go for one that is there,
or for none. -/
inductive Leaves (expiry : Expiry κ ν) (a : Account κ ν) (x : Access κ ν) (key : κ) : Held ν → Prop
  | untouched {h : Held ν} (other : a.usedBy x ≠ some key) (held : a.held key = some h) : Leaves expiry a x key h
  | found {h : Held ν} (gets : x = .get key) (fresh : a.fresh? key = some h) :
    Leaves expiry a x key (expiry.read key a.now h)
  | created {value : ν} (stores : x = .insert key value) (vacant : a.fresh? key = none) :
    Leaves expiry a x key (expiry.create key value a.now)
  | updated {value : ν} {h : Held ν} (stores : x = .insert key value) (held : a.held key = some h) :
    Leaves expiry a x key (expiry.update key value a.now h)

/-- The order of use after an access. -/
def orderAfter [DecidableEq κ] (a : Account κ ν) (x : Access κ ν) : List κ :=
  (a.usedBy x).elim a.order (touch a.order)

end Account

/-! ## What is relied on -/

section Laws

open CacheLibrary

variable (expiry : Expiry κ ν) [CacheLibrary σ expiry] (capacity : Nat) (account : σ → Account κ ν)

/-- **The cache applies its hooks.**  Its clock shows the time that has passed, a look-up answers with
what is held within its time, and under a key there is nothing but what the last access has left. -/
structure AppliesExpiry : Prop where
  started : (account (build capacity)).now = .zero
  clock : ∀ cache, Kept capacity cache → ∀ x, (account (tend cache x)).now = (account cache).now + x.span
  answers : ∀ cache, Kept capacity cache → ∀ key,
    (get cache key).1 = ((account cache).fresh? key).map Held.value
  leaves : ∀ cache, Kept capacity cache → ∀ x key h,
    (account (tend cache x)).held key = some h → (account cache).Leaves expiry x key h

/-- **The cache drops what was used least recently.**  An access that uses a key makes it the last in the
order.  Then some of the entries go that are past their time, and of the others only the last ones
stay, as many as there is room for. -/
structure ExactLru [DecidableEq κ] : Prop where
  empty : (account (build capacity)).order = []
  listed : ∀ cache, Kept capacity cache → ∀ key,
    key ∈ (account cache).order ↔ (account cache).held key ≠ none
  counted : ∀ cache, Kept capacity cache → count cache = (account cache).order.length
  keeps : ∀ cache, Kept capacity cache → ∀ x, ∃ expired : List κ,
    (∀ key ∈ expired, ∃ h, (account cache).Leaves expiry x key h ∧
      h.isFresh ((account cache).now + x.span) = false) ∧
    (account (tend cache x)).order =
      (((account cache).orderAfter x).filter fun key => decide (key ∉ expired)).rtake capacity

end Laws

/-! ## The order of use -/

section Order

variable [DecidableEq κ] {order : List κ} {key k : κ}

theorem mem_touch : k ∈ touch order key ↔ k = key ∨ k ∈ order := by
  by_cases same : k = key <;> simp [touch, same]

theorem nodup_touch (nodup : order.Nodup) : (touch order key).Nodup := by
  refine List.nodup_append.mpr ⟨nodup.filter _, List.nodup_singleton key, ?_⟩
  intro a before b new same
  rw [List.mem_singleton.mp new] at same
  simp [same] at before

/-- The key stands in the order, with nothing behind it but these others. -/
def Follows (others : Finset κ) (key : κ) (order : List κ) : Prop :=
  ∃ before behind, order = before ++ key :: behind ∧ ∀ k ∈ behind, k ∈ others

namespace Follows

variable {others : Finset κ}

omit [DecidableEq κ] in
theorem mem (h : Follows others key order) : key ∈ order := by
  obtain ⟨before, behind, rfl, -⟩ := h
  simp

omit [DecidableEq κ] in
theorem mono {more : Finset κ} (h : Follows others key order) (sub : others ⊆ more) : Follows more key order := by
  obtain ⟨before, behind, rfl, among⟩ := h
  exact ⟨before, behind, rfl, fun k member => sub (among k member)⟩

theorem of_touch (order : List κ) (key : κ) : Follows others key (touch order key) :=
  ⟨order.filter (· ≠ key), [], rfl, nofun⟩

theorem touch (h : Follows others key order) (other : k ≠ key) (among : k ∈ others) :
    Follows others key (touch order k) := by
  obtain ⟨before, behind, rfl, behindAmong⟩ := h
  refine ⟨before.filter (· ≠ k), behind.filter (· ≠ k) ++ [k], ?_, ?_⟩
  · simp [LruStore.touch, List.filter_append, Ne.symm other]
  · intro j member
    rcases List.mem_append.mp member with before | new
    · exact behindAmong j (List.mem_of_mem_filter before)
    · rw [List.mem_singleton.mp new]
      exact among

omit [DecidableEq κ] in
theorem filter (h : Follows others key order) {keep : κ → Bool} (kept : keep key = true) :
    Follows others key (order.filter keep) := by
  obtain ⟨before, behind, rfl, among⟩ := h
  refine ⟨before.filter keep, behind.filter keep, by simp [kept], ?_⟩
  intro k member
  exact among k (List.mem_of_mem_filter member)

/-- With fewer others than there is room for, the key is among the last ones. -/
theorem rtake (h : Follows others key order) (nodup : order.Nodup) {room : Nat} (few : others.card < room) :
    Follows others key (order.rtake room) := by
  obtain ⟨before, behind, rfl, among⟩ := h
  have nodupBehind : behind.Nodup := (List.nodup_cons.mp (List.nodup_append.mp nodup).2.1).2
  have short : behind.length ≤ others.card := by
    rw [← List.toFinset_card_of_nodup nodupBehind]
    exact Finset.card_le_card fun k member => among k (List.mem_toFinset.mp member)
  refine ⟨before.drop (before.length + (behind.length + 1) - room), behind, ?_, among⟩
  rw [List.rtake, List.length_append, List.length_cons, List.drop_append_of_le_length (by omega)]

end Follows

/-- An access makes its key the last one, and leaves the others as they were. -/
theorem Account.follows_orderAfter {a : Account κ ν} {x : Access κ ν} {others : Finset κ}
    (follows : a.usedBy x = some key ∨ Follows others key a.order)
    (among : ∀ k, a.usedBy x = some k → k ≠ key → k ∈ others) : Follows others key (a.orderAfter x) := by
  rw [orderAfter]
  cases user : a.usedBy x with
  | none =>
    rw [user] at follows
    exact follows.resolve_left nofun
  | some k =>
    by_cases same : k = key
    · rw [same]
      exact .of_touch a.order key
    · rw [user] at follows
      have behind := follows.resolve_left fun used => same (Option.some.inj used)
      exact behind.touch same (among k user same)

theorem Account.nodup_orderAfter {a : Account κ ν} (nodup : a.order.Nodup) (x : Access κ ν) :
    (a.orderAfter x).Nodup := by
  rw [orderAfter]
  cases a.usedBy x with
  | none => exact nodup
  | some key => exact nodup_touch nodup

end Order

/-! ## Every cache that drops what was used least recently -/

namespace ExactLru

open CacheLibrary

variable [DecidableEq κ] {expiry : Expiry κ ν} [CacheLibrary σ expiry] {capacity : Nat} {account : σ → Account κ ν}

theorem nodup (lru : ExactLru expiry capacity account) {cache : σ} (kept : Kept capacity cache) :
    (account cache).order.Nodup := by
  induction kept with
  | built => rw [lru.empty]; exact List.nodup_nil
  | tended kept x ih =>
    obtain ⟨expired, -, order⟩ := lru.keeps _ kept x
    rw [order]
    exact ((Account.nodup_orderAfter ih x).filter _).sublist (List.drop_sublist _ _)

/-- It never holds more than there is room for. -/
theorem count_le (lru : ExactLru expiry capacity account) {cache : σ} (kept : Kept capacity cache) :
    count cache ≤ capacity := by
  rw [lru.counted cache kept]
  cases kept with
  | built => rw [lru.empty]; exact Nat.zero_le _
  | tended kept x =>
    obtain ⟨expired, -, order⟩ := lru.keeps _ kept x
    rw [order, List.rtake, List.length_drop]
    omega

end ExactLru

end PolicyClient
