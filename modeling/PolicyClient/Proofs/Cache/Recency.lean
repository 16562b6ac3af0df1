/-
# PolicyClient.Proofs.Cache.Recency -- the cache that runs keeps to the laws

A store that is tidied after every access has empty logs, and lists the keys of its entries in the
order of their last use (`LruStore.Tended`).  What an access and its upkeep do to such a store has a
closed form: the key that is stored or hit moves to the end of the order (`Tended.uses_access`), keys
past their time may go, and of the others only the last ones stay, as many as there is room for
(`order_tidy`).

So it does what is relied on of a library of caches: it applies any hooks that it is given
(`LruStore.appliesExpiry`), and drops what was used least recently (`LruStore.exactLru`).
-/
import PolicyClient.Proofs.Cache.Account

namespace PolicyClient

set_option autoImplicit false

namespace LruStore

variable {κ ν : Type} {expiry : Expiry κ ν}

/-- What a store accounts for itself. -/
def account [DecidableEq κ] (s : LruStore expiry) : Account κ ν := ⟨s.now, s.held?, s.order⟩

variable [DecidableEq κ]

@[simp] theorem order_account (s : LruStore expiry) : s.account.order = s.order := rfl

@[simp] theorem fresh?_account (s : LruStore expiry) (key : κ) : s.account.fresh? key = s.fresh? key := rfl

/-! ## Upkeep in closed form -/

/-- Of a list without repetitions only the last ones stay if the first ones are taken out. -/
theorem filter_not_mem_take {l : List κ} (nodup : l.Nodup) (n : Nat) :
    l.filter (fun k => decide (k ∉ l.take n)) = l.drop n := by
  have halves := List.take_append_drop n l
  have apart : List.Disjoint (l.take n) (l.drop n) := by
    rw [← halves] at nodup
    exact List.disjoint_of_nodup_append nodup
  calc l.filter (fun k => decide (k ∉ l.take n))
      = (l.take n).filter (fun k => decide (k ∉ l.take n)) ++
          (l.drop n).filter fun k => decide (k ∉ l.take n) := by rw [← List.filter_append, halves]
    _ = [] ++ l.drop n := by
      congr 1
      · exact List.filter_eq_nil_iff.mpr fun k member => by simpa using member
      · exact List.filter_eq_self.mpr fun k member => by simpa using fun taken => apart taken member
    _ = l.drop n := List.nil_append _

theorem filter_not_mem_append (l first later : List κ) :
    l.filter (fun k => decide (k ∉ first ++ later)) =
      (l.filter fun k => decide (k ∉ first)).filter fun k => decide (k ∉ later) := by
  rw [List.filter_filter]
  refine List.filter_congr fun k _ => ?_
  simp [not_or, Bool.and_comm]

/-- The keys that a sweep finds past their time, if one is due. -/
def swept (s : LruStore expiry) : List κ := if s.sweepDue then s.uses.filter s.isStale else []

/-- **Of the keys that a sweep leaves upkeep keeps the last ones**, as many as there is room for. -/
theorem order_tidy {s : LruStore expiry} (nodup : s.uses.Nodup) :
    (s.tidy none).order = (s.uses.filter fun key => decide (key ∉ s.swept)).rtake s.capacity := by
  have others : (s.uses.filter fun key => decide (some key ≠ none)) = s.uses := by simp
  have part : s.swept = s.uses.filter fun key => s.sweepDue && s.isStale key := by
    unfold swept
    cases s.sweepDue <;> simp
  have left : (s.uses.filter fun key => decide (key ∉ s.swept)) =
      s.uses.filter fun key => !(s.sweepDue && s.isStale key) := by
    refine List.filter_congr fun key member => ?_
    cases stale : s.sweepDue && s.isStale key <;> simp [part, stale, member]
  have count : s.uses.length - s.swept.length = (s.uses.filter fun key => decide (key ∉ s.swept)).length := by
    have parts := List.length_eq_length_filter_add (l := s.uses) fun key => s.sweepDue && s.isStale key
    rw [left, part]
    omega
  have dropped : (s.tidy none).order = s.uses.filter fun key => decide (key ∉ s.swept ++
      (s.uses.filter fun key => decide (key ∉ s.swept)).take (s.uses.length - s.swept.length - s.capacity)) := by
    simp only [tidy, others]
    rfl
  rw [dropped, count, filter_not_mem_append]
  exact filter_not_mem_take (nodup.filter _) _

/-- The keys of a store are held once each, and the order of use has just those. -/
structure Listed (s : LruStore expiry) : Prop where
  once : (s.entries.map Prod.fst).Nodup
  nodup : s.uses.Nodup
  same : ∀ key, key ∈ s.uses ↔ key ∈ s.entries.map Prod.fst

/-- A store as upkeep leaves it: the logs are empty. -/
structure Tended (s : LruStore expiry) : Prop where
  lookups : s.lookups = []
  puts : s.puts = []
  once : (s.entries.map Prod.fst).Nodup
  nodup : s.order.Nodup
  same : ∀ key, key ∈ s.order ↔ key ∈ s.entries.map Prod.fst

/-- Upkeep drops from the entries what it drops from the order. -/
theorem Listed.entries_tidy {s : LruStore expiry} (h : s.Listed) :
    (s.tidy none).entries = s.entries.filter fun e => decide (e.1 ∈ (s.tidy none).order) := by
  obtain ⟨dropped, order, entries⟩ : ∃ dropped : List κ,
      (s.tidy none).order = s.uses.filter (fun key => decide (key ∉ dropped)) ∧
        (s.tidy none).entries = s.entries.filter fun e => decide (e.1 ∉ dropped) := ⟨_, rfl, rfl⟩
  rw [entries, order]
  refine List.filter_congr fun e member => ?_
  have held : e.1 ∈ s.uses := (h.same e.1).mpr (List.mem_map_of_mem member)
  simp [held]

theorem Listed.tidy {s : LruStore expiry} (h : s.Listed) : (s.tidy none).Tended where
  lookups := rfl
  puts := rfl
  once := by
    rw [h.entries_tidy]
    exact h.once.sublist (List.filter_sublist.map _)
  nodup := by
    rw [order_tidy h.nodup]
    exact (h.nodup.filter _).sublist (List.drop_sublist _ _)
  same key := by
    have known : key ∈ (s.tidy none).order → key ∈ s.uses := fun member =>
      List.mem_of_mem_filter (List.mem_of_mem_drop (order_tidy h.nodup ▸ member))
    rw [h.entries_tidy]
    constructor
    · intro member
      obtain ⟨e, held, rfl⟩ := List.mem_map.mp ((h.same key).mp (known member))
      exact List.mem_map_of_mem (List.mem_filter.mpr ⟨held, by simpa using member⟩)
    · intro member
      obtain ⟨e, kept, rfl⟩ := List.mem_map.mp member
      simpa using (List.mem_filter.mp kept).2

theorem held?_of_mem {s : LruStore expiry} (once : (s.entries.map Prod.fst).Nodup) {key : κ} {h : Held ν}
    (held : (key, h) ∈ s.entries) : s.held? key = some h := by
  unfold held?
  cases found : s.entries.find? fun e => decide (e.1 = key) with
  | none => simpa using List.find?_eq_none.mp found (key, h) held
  | some first =>
    have named : first.1 = key := by simpa using List.find?_some found
    have same : first = (key, h) :=
      List.inj_on_of_nodup_map once (List.mem_of_find?_eq_some found) held named
    simp [same]

theorem mem_keys_iff (s : LruStore expiry) (key : κ) : key ∈ s.entries.map Prod.fst ↔ s.held? key ≠ none := by
  rw [held?, ne_eq, Option.map_eq_none_iff, List.find?_eq_none, List.mem_map]
  simp

/-- What upkeep finds past its time is held, and is. -/
theorem Listed.stale_of_swept {s : LruStore expiry} (h : s.Listed) {key : κ} (stale : key ∈ s.swept) :
    ∃ h, s.held? key = some h ∧ h.isFresh s.now = false := by
  unfold swept at stale
  split at stale
  · obtain ⟨⟨key', e⟩, member, found⟩ := List.any_eq_true.mp (List.mem_filter.mp stale).2
    simp only [Bool.and_eq_true, decide_eq_true_eq, Bool.not_eq_true'] at found
    obtain ⟨rfl, passed⟩ := found
    exact ⟨e, held?_of_mem h.once member, passed⟩
  · cases stale

/-! ## Accesses -/

open CacheLibrary (access tend Kept)

theorem access_settings (s : LruStore expiry) (x : Access κ ν) :
    (access s x).now = s.now + x.span ∧ (access s x).capacity = s.capacity := by
  cases x with
  | get key => exact s.get_settings key
  | insert key value => exact s.insert_settings key value
  | pass time => exact ⟨rfl, rfl⟩

namespace Tended

variable {s : LruStore expiry}

/-- Storing needs no upkeep while the log is empty. -/
theorem insert_eq (h : s.Tended) (room : s.capacity ≠ 0) (key : κ) (value : ν) :
    s.insert key value = { s.hold key (s.stored key value) with puts := [key] } := by
  have log : (s.hold key (s.stored key value)).puts = [] := h.puts
  simp [insert, room, log, logLimit]

/-- Nor does looking up. -/
theorem get_eq (h : s.Tended) (key : κ) :
    (s.get key).2 = match s.fresh? key with
      | none => { s with lookups := [none] }
      | some found => { s.renew key (expiry.read key s.now found) with lookups := [some key] } := by
  have log : ∀ found, (s.renew key found).lookups = [] := fun _ => h.lookups
  cases looked : s.fresh? key <;> simp [get, looked, h.lookups, log, logLimit]

/-- A key that is hit is one that upkeep knows. -/
theorem mem_order_of_hit (h : s.Tended) {key : κ} {found : Held ν} (hit : s.fresh? key = some found) :
    key ∈ s.order := by
  rw [h.same, s.mem_keys_iff, ((s.fresh?_eq_some_iff key found).mp hit).1]
  exact Option.some_ne_none found

/-- The access moves its key to the end of the order. -/
theorem uses_access (h : s.Tended) (room : s.capacity ≠ 0) (x : Access κ ν) :
    (access s x).uses = s.account.orderAfter x := by
  cases x with
  | get key =>
    show (s.get key).2.uses = _
    rw [h.get_eq]
    cases hit : s.fresh? key with
    | none => simp [uses, h.puts, Account.orderAfter, Account.usedBy, hit]
    | some found =>
      have known : key ∈ s.order := h.mem_order_of_hit hit
      simp [uses, renew, h.puts, touchKnown, known, Account.orderAfter, Account.usedBy, hit]
  | insert key value =>
    show (s.insert key value).uses = _
    rw [h.insert_eq room]
    simp [uses, hold, h.lookups, Account.orderAfter, Account.usedBy]
  | pass time =>
    show (s.advance time).uses = _
    simp [uses, advance, h.lookups, h.puts, Account.orderAfter, Account.usedBy]

/-- What is held after an access is what the access has left. -/
theorem leaves_access (h : s.Tended) (room : s.capacity ≠ 0) {x : Access κ ν} {key : κ} {found : Held ν}
    (held : (access s x).held? key = some found) : s.account.Leaves expiry x key found := by
  cases x with
  | get key' =>
    have reached : (access s (.get key')).held? key = (s.get key').2.held? key := rfl
    rw [reached, h.get_eq] at held
    cases hit : s.fresh? key' with
    | none =>
      rw [hit] at held
      have unused : s.account.usedBy (.get key') ≠ some key := by
        rw [Account.usedBy, fresh?_account, hit]
        nofun
      exact .untouched unused held
    | some found' =>
      rw [hit] at held
      replace held : (s.renew key' (expiry.read key' s.now found')).held? key = some found := held
      rw [held?_renew] at held
      by_cases same : key = key'
      · subst same
        rw [if_pos rfl, ((s.fresh?_eq_some_iff key found').mp hit).1] at held
        cases held
        exact .found rfl hit
      · rw [if_neg same] at held
        have other : s.account.usedBy (.get key') ≠ some key := by
          rw [Account.usedBy, fresh?_account, hit]
          simpa using Ne.symm same
        exact .untouched other held
  | insert key' value =>
    replace held : (s.insert key' value).held? key = some found := held
    have left := s.held?_insert held
    by_cases same : key = key'
    · subst same
      rw [if_pos rfl] at left
      rw [left.resolve_left room, stored]
      cases there : s.held? key with
      | none =>
        refine .created rfl ?_
        show (s.held? key).filter _ = none
        rw [there]
        rfl
      | some old => exact .updated rfl there
    · rw [if_neg same] at left
      exact .untouched (fun used => same (Option.some.inj used).symm) left
  | pass time => exact .untouched nofun held

theorem keys_access (h : s.Tended) (room : s.capacity ≠ 0) (x : Access κ ν) :
    (access s x).entries.map Prod.fst = match x with
      | .insert key _ => key :: (s.entries.map Prod.fst).filter fun k => decide (k ≠ key)
      | _ => s.entries.map Prod.fst := by
  cases x with
  | get key =>
    show (s.get key).2.entries.map Prod.fst = _
    rw [h.get_eq]
    cases s.fresh? key with
    | none => rfl
    | some found =>
      simp only [renew, List.map_map]
      refine List.map_congr_left fun e _ => ?_
      by_cases same : e.1 = key <;> simp [same]
  | insert key value =>
    show (s.insert key value).entries.map Prod.fst = _
    rw [h.insert_eq room]
    simp [hold, List.filter_map, Function.comp_def]
  | pass time => rfl

theorem listed_access (h : s.Tended) (room : s.capacity ≠ 0) (x : Access κ ν) : (access s x).Listed := by
  have uses := h.uses_access room x
  have keys := h.keys_access room x
  refine ⟨?_, ?_, fun k => ?_⟩
  · rw [keys]
    cases x with
    | insert key value => exact List.nodup_cons.mpr ⟨by simp, h.once.filter _⟩
    | get key => exact h.once
    | pass time => exact h.once
  · rw [uses]
    exact Account.nodup_orderAfter (a := s.account) h.nodup x
  · rw [uses, keys, Account.orderAfter]
    cases x with
    | insert key value =>
      show k ∈ touch s.order key ↔ _
      rw [mem_touch, h.same, List.mem_cons]
      by_cases same : k = key <;> simp [same]
    | get key =>
      rw [Account.usedBy, fresh?_account, ← h.same]
      cases hit : s.fresh? key with
      | none => rfl
      | some found =>
        show k ∈ touch s.order key ↔ k ∈ s.order
        rw [mem_touch, or_iff_right_of_imp]
        rintro rfl
        exact h.mem_order_of_hit hit
    | pass time => exact h.same k

end Tended

/-! ## The laws -/

/-- Every store that is kept is tended, and has the capacity that it was built with. -/
theorem tended_of_kept {capacity : Nat} (room : capacity ≠ 0) {s : LruStore expiry} (kept : Kept capacity s) :
    s.Tended ∧ s.capacity = capacity := by
  induction kept with
  | built => exact ⟨⟨rfl, rfl, .nil, .nil, fun key => Iff.rfl⟩, rfl⟩
  | tended kept x ih =>
    obtain ⟨tended, same⟩ := ih
    exact ⟨(tended.listed_access (same ▸ room) x).tidy, (access_settings _ x).2.trans same⟩

/-- **The cache that runs applies its hooks**, whatever they are. -/
theorem appliesExpiry {capacity : Nat} (room : capacity ≠ 0) :
    AppliesExpiry expiry capacity (account : LruStore expiry → Account κ ν) where
  started := rfl
  clock s _ x := (s.access_settings x).1
  answers s _ key := rfl
  leaves s kept x key h held := by
    obtain ⟨tended, same⟩ := tended_of_kept room kept
    exact tended.leaves_access (same ▸ room) (held?_tidy _ _ held)

/-- **The cache that runs drops what was used least recently.** -/
theorem exactLru {capacity : Nat} (room : capacity ≠ 0) :
    ExactLru expiry capacity (account : LruStore expiry → Account κ ν) where
  empty := rfl
  listed s kept key := by
    obtain ⟨tended, -⟩ := tended_of_kept room kept
    exact (tended.same key).trans (s.mem_keys_iff key)
  counted s kept := by
    obtain ⟨tended, -⟩ := tended_of_kept room kept
    have perm : (s.entries.map Prod.fst).Perm s.order :=
      (List.perm_ext_iff_of_nodup tended.once tended.nodup).mpr fun key => (tended.same key).symm
    have length := perm.length_eq
    rw [List.length_map] at length
    exact length
  keeps s kept x := by
    obtain ⟨tended, same⟩ := tended_of_kept room kept
    have listed := tended.listed_access (same ▸ room) x
    obtain ⟨now, capacity⟩ := s.access_settings x
    refine ⟨(access s x).swept, fun key stale => ?_, ?_⟩
    · obtain ⟨h, held, passed⟩ := listed.stale_of_swept stale
      rw [now] at passed
      exact ⟨h, tended.leaves_access (same ▸ room) held, passed⟩
    · have order := order_tidy listed.nodup
      rw [tended.uses_access (same ▸ room), capacity, same] at order
      exact order

end LruStore

end PolicyClient
