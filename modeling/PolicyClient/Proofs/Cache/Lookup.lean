/-
# PolicyClient.Proofs.Cache.Lookup -- what a store can answer

Upkeep and look-ups may make a store forget a key, and do no more to what it holds
(`DecisionCache.Forgets`).  Storing a decision sets what is held under its key, unless it is
forgotten at once, and forgets other keys at most (`lookup_put`).  So whatever a store
answers was stored under that very key.

`Client.consult` asks a store for every action of a request.  Its look-ups forget at most,
so what it finds is what the store would have answered at the beginning
(`Client.consult_consults`).  An answer that may be remembered sets what is held for the
actions that were asked, and nothing else (`Correlator.remember_remembers`).
-/
import PolicyClient.Client

namespace PolicyClient

set_option autoImplicit false

/-! ## The hooks of a decision -/

/-- What is held once `d` has been stored at `now` for the span `ttl`. -/
def storedDecision (d : Decision) (now : Instant) (ttl : Duration) : Held Entry := ⟨⟨d, ttl⟩, now, some (now + ttl)⟩

/-- Reading prolongs nothing. -/
theorem perEntryTtl_read {κ : Type} (key : κ) {now : Instant} {h : Held Entry} (fresh : h.isFresh now = true) :
    perEntryTtl.read key now h = h := by
  obtain ⟨value, written, _ | time⟩ := h
  · rfl
  · have later : now < time := by simpa [Held.isFresh] using fresh
    have back : now + (time - now) = time := congrArg Duration.mk (Nat.add_sub_cancel' (Nat.le_of_lt later))
    show (⟨value, written, some (now + (time - now))⟩ : Held Entry) = _
    rw [back]

namespace LruStore

variable {κ : Type} [DecidableEq κ]

section

variable {ν : Type} {expiry : Expiry κ ν}

/-- Entries are dropped by their keys. -/
theorem find?_filter_entries (entries : List (κ × Held ν)) (keep : κ → Bool) (key : κ) :
    (entries.filter fun e => keep e.1).find? (fun e => e.1 = key) =
      if keep key then entries.find? (fun e => e.1 = key) else none := by
  induction entries with
  | nil => simp
  | cons e entries ih =>
    by_cases same : e.1 = key
    · by_cases kept : keep key = true
      · simp [same, kept]
      · simp only [same, kept, List.filter_cons_of_neg, not_false_eq_true, ih, if_false,
          Bool.false_eq_true]
    · by_cases kept : keep e.1 = true
      · rw [List.filter_cons_of_pos (by simpa using kept),
          List.find?_cons_of_neg (by simpa using same), ih, List.find?_cons_of_neg (by simpa using same)]
      · rw [List.filter_cons_of_neg (by simpa using kept), ih,
          List.find?_cons_of_neg (by simpa using same)]

theorem fresh?_eq_some_iff (s : LruStore expiry) (key : κ) (h : Held ν) :
    s.fresh? key = some h ↔ s.held? key = some h ∧ h.isFresh s.now = true := by
  rw [fresh?, Option.filter_eq_some_iff]

theorem held?_hold (s : LruStore expiry) (key : κ) (h : Held ν) (key' : κ) :
    (s.hold key h).held? key' = if key' = key then some h else s.held? key' := by
  unfold held? hold
  by_cases same : key' = key
  · simp [same]
  · have kept := find?_filter_entries s.entries (fun k => decide (k ≠ key)) key'
    rw [List.find?_cons_of_neg (by simpa using Ne.symm same), kept]
    simp [same]

theorem held?_renew (s : LruStore expiry) (key : κ) (h : Held ν) (key' : κ) :
    (s.renew key h).held? key' = if key' = key then (s.held? key').map fun _ => h else s.held? key' := by
  unfold held? renew
  rw [List.find?_map]
  have same : ((fun e : κ × Held ν => decide (e.1 = key')) ∘ fun e => if e.1 = key then (key, h) else e) =
      fun e => decide (e.1 = key') := by
    funext e
    dsimp only [Function.comp]
    split
    · rename_i here
      rw [here]
    · rfl
  rw [same]
  cases found : s.entries.find? fun e => decide (e.1 = key') with
  | none => simp
  | some e =>
    have named : e.1 = key' := by simpa using List.find?_some found
    by_cases here : key' = key <;> simp [named, here]

/-- Upkeep drops entries, and changes none. -/
theorem held?_tidy (s : LruStore expiry) (spared : Option κ) {key : κ} {h : Held ν}
    (found : (s.tidy spared).held? key = some h) : s.held? key = some h := by
  obtain ⟨dropped, entries⟩ : ∃ dropped : List κ,
      (s.tidy spared).entries = s.entries.filter fun e => decide (e.1 ∉ dropped) := ⟨_, rfl⟩
  rw [held?, entries, find?_filter_entries _ fun k => decide (k ∉ dropped)] at found
  split at found
  · exact found
  · cases found

theorem insert_settings (s : LruStore expiry) (key : κ) (value : ν) :
    (s.insert key value).now = s.now ∧ (s.insert key value).capacity = s.capacity := by
  unfold insert
  split
  · exact ⟨rfl, rfl⟩
  · dsimp only
    split <;> exact ⟨rfl, rfl⟩

theorem get_settings (s : LruStore expiry) (key : κ) :
    (s.get key).2.now = s.now ∧ (s.get key).2.capacity = s.capacity := by
  unfold get
  cases s.fresh? key <;> dsimp only [Option.elim] <;> split <;> exact ⟨rfl, rfl⟩

/-- What is held after storing a value: it, under its key, and what was held before. -/
theorem held?_insert (s : LruStore expiry) {key key' : κ} {value : ν} {h : Held ν}
    (found : (s.insert key value).held? key' = some h) :
    if key' = key then s.capacity = 0 ∨ h = s.stored key value else s.held? key' = some h := by
  unfold insert at found
  split at found
  · rename_i none
    split
    · exact .inl none
    · exact found
  · have held : (s.hold key (s.stored key value)).held? key' = some h := by
      dsimp only at found
      split at found
      · exact found
      · exact held?_tidy _ _ found
    rw [held?_hold] at held
    split
    · rename_i same
      rw [if_pos same] at held
      exact .inr (Option.some.inj held).symm
    · rename_i other
      rw [if_neg other] at held
      exact held

end

/-- However a decision is stored, it counts from then on for its own span. -/
theorem stored_eq (s : LruStore (perEntryTtl : Expiry κ Entry)) (key : κ) (d : Decision) (ttl : Duration) :
    s.stored key ⟨d, ttl⟩ = storedDecision d s.now ttl := by
  unfold stored
  split <;> rfl

/-- A look-up of a decision makes the cache forget at most. -/
theorem held?_get (s : LruStore (perEntryTtl : Expiry κ Entry)) {key key' : κ} {h : Held Entry}
    (found : (s.get key).2.held? key' = some h) : s.held? key' = some h := by
  have renewed : ∀ h', s.fresh? key = some h' →
      (s.renew key (perEntryTtl.read key s.now h')).held? key' = s.held? key' := by
    intro h' fresh
    obtain ⟨held, inTime⟩ := (s.fresh?_eq_some_iff key h').1 fresh
    rw [held?_renew, perEntryTtl_read key inTime]
    split
    · rename_i same
      rw [same, held, Option.map_some]
    · rfl
  unfold get at found
  cases looked : s.fresh? key with
  | none =>
    simp only [looked, Option.elim] at found
    split at found
    · exact found
    · exact held?_tidy _ _ found
  | some h' =>
    simp only [looked, Option.elim] at found
    rw [← renewed h' looked]
    split at found
    · exact found
    · exact held?_tidy _ _ found

end LruStore

/-! ## Decisions that are held -/

namespace DecisionCache

variable {κ : Type} [DecidableEq κ]

/-- What is held under `key`, past its time or not. -/
def lookup (s : DecisionStore κ) (key : κ) : Option (Held Entry) := s.cache.held? key

/-- The decision held under `key`, if its time has not passed. -/
def find? (s : DecisionStore κ) (key : κ) : Option Decision := (s.cache.fresh? key).map fun h => h.value.decision

theorem find?_eq_some_iff (s : DecisionStore κ) (key : κ) (d : Decision) :
    s.find? key = some d ↔
      ∃ e, s.lookup key = some e ∧ e.isFresh s.cache.now = true ∧ e.value.decision = d := by
  simp only [find?, Option.map_eq_some_iff, LruStore.fresh?_eq_some_iff, and_assoc, lookup]

/-- The store `s'` has the settings and the clock of `s`, and holds nothing else. -/
structure Forgets (s s' : DecisionStore κ) : Prop where
  now : s'.cache.now = s.cache.now
  ttl : s'.ttl = s.ttl
  capacity : s'.cache.capacity = s.cache.capacity
  held : ∀ key e, s'.lookup key = some e → s.lookup key = some e

namespace Forgets

variable {s s' s'' : DecisionStore κ}

theorem refl (s : DecisionStore κ) : Forgets s s := ⟨rfl, rfl, rfl, fun _ _ => id⟩

theorem trans (first : Forgets s s') (second : Forgets s' s'') : Forgets s s'' where
  now := second.now.trans first.now
  ttl := second.ttl.trans first.ttl
  capacity := second.capacity.trans first.capacity
  held key e found := first.held key e (second.held key e found)

theorem find? (h : Forgets s s') {key : κ} {d : Decision} (found : s'.find? key = some d) :
    s.find? key = some d := by
  obtain ⟨e, held, fresh, rfl⟩ := (find?_eq_some_iff s' key d).1 found
  rw [h.now] at fresh
  exact (find?_eq_some_iff s key _).2 ⟨e, h.held key e held, fresh, rfl⟩

end Forgets

theorem get?_fst (s : DecisionStore κ) (key : κ) : (s.get? key).1 = s.find? key := by
  show ((s.cache.fresh? key).map Held.value).map Entry.decision = _
  rw [Option.map_map]
  rfl

theorem get?_forgets (s : DecisionStore κ) (key : κ) : Forgets s (s.get? key).2 := by
  obtain ⟨now, capacity⟩ := s.cache.get_settings key
  exact ⟨now, rfl, capacity, fun _ _ => s.cache.held?_get⟩

/-- What is held after storing a decision: it, under its key, and what was held before. -/
theorem lookup_put (s : DecisionStore κ) {key key' : κ} {d : Decision} {ttl : Duration} {e : Held Entry}
    (found : (s.put key d ttl).lookup key' = some e) :
    if key' = key then s.cache.capacity = 0 ∨ e = storedDecision d s.cache.now ttl else s.lookup key' = some e := by
  have held := s.cache.held?_insert found
  rw [LruStore.stored_eq] at held
  exact held

theorem put_settings (s : DecisionStore κ) (key : κ) (d : Decision) (ttl : Duration) :
    (s.put key d ttl).cache.now = s.cache.now ∧ (s.put key d ttl).ttl = s.ttl ∧
      (s.put key d ttl).cache.capacity = s.cache.capacity := by
  obtain ⟨now, capacity⟩ := s.cache.insert_settings key ⟨d, ttl⟩
  exact ⟨now, rfl, capacity⟩

end DecisionCache

/-! ## Remembering an answer -/

namespace Answer

theorem isCacheable_iff (r : Answer) :
    r.isCacheable = true ↔ r.validationErrors = [] ∧ r.outputs = .empty := by
  simp only [isCacheable, Bool.and_eq_true, List.isEmpty_iff, Table.isEmpty]
  exact and_congr_right fun _ => ⟨fun nothing => Table.ext_entries nothing, fun same => by rw [same]; rfl⟩

theorem decision?_name {r : Answer} (valid : r.validationErrors = []) (a : Action) :
    r.decision? a.name = r.decisions.get? a := by
  simp [decision?, hasValidationErrors, valid]

end Answer

namespace Correlator

/-- The answer gives `d` on an action that was asked under `f`. -/
def Tells (asked : List (Action × Fingerprint)) (r : Answer) (f : Fingerprint) (d : Decision) : Prop :=
  ∃ a, (a, f) ∈ asked ∧ r.decision? a.name = some d

/-- What a store holds once the decisions of an answer are stored in it: these, and at most
what it held before under other keys. -/
structure Remembers (asked : List (Action × Fingerprint)) (r : Answer)
    (s s' : DecisionStore Fingerprint) : Prop where
  now : s'.cache.now = s.cache.now
  ttl : s'.ttl = s.ttl
  capacity : s'.cache.capacity = s.cache.capacity
  held : ∀ f e, s'.lookup f = some e →
    (∃ d, Tells asked r f d ∧ e = storedDecision d s.cache.now s.ttl) ∨
      (s.lookup f = some e ∧ ∀ d, ¬ Tells asked r f d)

/-- Stores the decision on one action that was asked. -/
def rememberNext (r : Answer) (s : DecisionStore Fingerprint) (entry : Action × Fingerprint) :
    DecisionStore Fingerprint :=
  match r.decision? entry.1.name with
  | some d => s.putDefault entry.2 d
  | none => s

theorem rememberNext_remembers (r : Answer) {s : DecisionStore Fingerprint} (room : s.cache.capacity ≠ 0)
    (action : Action) (fingerprint : Fingerprint) :
    Remembers [(action, fingerprint)] r s (rememberNext r s (action, fingerprint)) := by
  unfold rememberNext
  simp only
  split
  · rename_i d decided
    obtain ⟨now, ttl, capacity⟩ := s.put_settings fingerprint d s.ttl
    refine ⟨now, ttl, capacity, ?_⟩
    intro f e found
    have put := s.lookup_put found
    by_cases same : f = fingerprint
    · rw [if_pos same] at put
      rw [same]
      exact .inl ⟨d, ⟨action, List.mem_singleton_self _, decided⟩, put.resolve_left room⟩
    · rw [if_neg same] at put
      refine .inr ⟨put, ?_⟩
      rintro d' ⟨a, member, _⟩
      exact same (Prod.mk.inj (List.mem_singleton.1 member)).2
  · rename_i undecided
    refine ⟨rfl, rfl, rfl, fun f e found => .inr ⟨found, fun d ⟨a, member, decided⟩ => ?_⟩⟩
    rw [(Prod.mk.inj (List.mem_singleton.1 member)).1, undecided] at decided
    cases decided

theorem foldl_rememberNext (r : Answer) (asked : List (Action × Fingerprint))
    {s : DecisionStore Fingerprint} (room : s.cache.capacity ≠ 0) :
    Remembers asked r s (asked.foldl (rememberNext r) s) := by
  induction asked generalizing s with
  | nil => exact ⟨rfl, rfl, rfl, fun f e found => .inr ⟨found, fun d ⟨a, member, _⟩ => nomatch member⟩⟩
  | cons entry rest ih =>
    have first := rememberNext_remembers r room entry.1 entry.2
    have later := ih (s := rememberNext r s entry) (by rw [first.capacity]; exact room)
    refine ⟨later.now.trans first.now, later.ttl.trans first.ttl,
      later.capacity.trans first.capacity, ?_⟩
    intro f e found
    rcases later.held f e found with ⟨d, ⟨a, member, decided⟩, rfl⟩ | ⟨found, untold⟩
    · exact .inl ⟨d, ⟨a, List.mem_cons_of_mem _ member, decided⟩, by rw [first.now, first.ttl]⟩
    · rcases first.held f e found with ⟨d, ⟨a, member, decided⟩, rfl⟩ | ⟨found, untold'⟩
      · have here : (a, f) ∈ entry :: rest := by
          rw [List.mem_singleton.1 member]
          exact List.mem_cons_self ..
        exact .inl ⟨d, ⟨a, here, decided⟩, rfl⟩
      · refine .inr ⟨found, ?_⟩
        rintro d ⟨a, member, decided⟩
        rcases List.mem_cons.1 member with here | there
        · exact untold' d ⟨a, List.mem_singleton.2 here, decided⟩
        · exact untold d ⟨a, there, decided⟩

/-- **An answer that may be remembered is**, for the actions that were asked. -/
theorem remember_remembers {k : Correlator} {s : DecisionStore Fingerprint} (cache : k.cache = some s)
    (room : s.cache.capacity ≠ 0) (asked : List (Action × Fingerprint)) (r : Answer) :
    ∃ s', (k.remember asked r).cache = some s' ∧
      if r.isCacheable = true then Remembers asked r s s' else s' = s := by
  refine ⟨if r.isCacheable = true then asked.foldl (rememberNext r) s else s, ?_, ?_⟩
  · rw [remember, cache]
    rfl
  · split
    · exact foldl_rememberNext r asked room
    · rfl

end Correlator

/-! ## Asking for every action of a request -/

namespace Client

open DecisionCache (Forgets)

/-- What is known about some actions of a request, from a store that held `store`. -/
structure Consults (store : DecisionStore Fingerprint) (request : Request) (actions : List Action)
    (known : Prefill × DecisionStore Fingerprint) : Prop where
  forgets : Forgets store known.2
  decided : ∀ a d, known.1.decisions.get? a = some d →
    a ∈ actions ∧ store.find? (.of request a) = some d
  asked : ∀ a f, (a, f) ∈ known.1.asked → a ∈ actions ∧ f = .of request a
  covered : ∀ a ∈ actions, (∃ d, known.1.decisions.get? a = some d) ∨
    (a, Fingerprint.of request a) ∈ known.1.asked

/-- What is known once one more action has been looked up. -/
def consultNext (request : Request) (known : Prefill × DecisionStore Fingerprint) (action : Action) :
    Prefill × DecisionStore Fingerprint :=
  match known.2.get? (.of request action) with
  | (some d, store) => ({ known.1 with decisions := known.1.decisions.insert action d }, store)
  | (none, store) =>
    ({ known.1 with asked := known.1.asked ++ [(action, .of request action)] }, store)

theorem consult_eq (store : DecisionStore Fingerprint) (request : Request) :
    consult store request = request.actions.foldl (consultNext request) ({}, store) := rfl

/-- An action that the store decides is not asked. -/
theorem fst_consultNext {request : Request} {known : Prefill × DecisionStore Fingerprint}
    {action : Action} {d : Decision} (found : known.2.find? (.of request action) = some d) :
    (consultNext request known action).1 =
      { known.1 with decisions := known.1.decisions.insert action d } := by
  have answer := known.2.get?_fst (.of request action)
  rw [found] at answer
  unfold consultNext
  generalize known.2.get? (.of request action) = looked at answer
  obtain ⟨_, next⟩ := looked
  cases answer
  rfl

section

variable {store store' : DecisionStore Fingerprint} {request : Request} {actions : List Action}
  {known : Prefill × DecisionStore Fingerprint}

theorem Consults.decide (h : Consults store request actions known) (forgets : Forgets known.2 store')
    {action : Action} {d : Decision} (found : known.2.find? (.of request action) = some d) :
    Consults store request (actions ++ [action])
      ({ known.1 with decisions := known.1.decisions.insert action d }, store') := by
  refine ⟨h.forgets.trans forgets, ?_, ?_, ?_⟩
  · intro a d' known'
    simp only [Table.get?_insert] at known'
    by_cases same : a = action
    · rw [if_pos same, Option.some.injEq] at known'
      rw [same, ← known']
      exact ⟨List.mem_append_right _ (List.mem_singleton_self _), h.forgets.find? found⟩
    · rw [if_neg same] at known'
      obtain ⟨member, found'⟩ := h.decided a d' known'
      exact ⟨List.mem_append_left _ member, found'⟩
  · intro a f member
    obtain ⟨member', f_eq⟩ := h.asked a f member
    exact ⟨List.mem_append_left _ member', f_eq⟩
  · intro a member
    simp only [Table.get?_insert]
    by_cases same : a = action
    · exact .inl ⟨d, if_pos same⟩
    · have member' : a ∈ actions := by simpa [same] using member
      rcases h.covered a member' with ⟨d', known'⟩ | asked
      · exact .inl ⟨d', by rw [if_neg same]; exact known'⟩
      · exact .inr asked

theorem Consults.ask (h : Consults store request actions known) (forgets : Forgets known.2 store')
    (action : Action) : Consults store request (actions ++ [action])
      ({ known.1 with asked := known.1.asked ++ [(action, .of request action)] }, store') := by
  refine ⟨h.forgets.trans forgets, ?_, ?_, ?_⟩
  · intro a d known'
    obtain ⟨member, found⟩ := h.decided a d known'
    exact ⟨List.mem_append_left _ member, found⟩
  · intro a f member
    rcases List.mem_append.1 member with member' | new
    · obtain ⟨member', f_eq⟩ := h.asked a f member'
      exact ⟨List.mem_append_left _ member', f_eq⟩
    · simp only [List.mem_singleton, Prod.mk.injEq] at new
      rw [new.1, new.2]
      exact ⟨List.mem_append_right _ (List.mem_singleton_self _), rfl⟩
  · intro a member
    rcases List.mem_append.1 member with member' | new
    · exact (h.covered a member').imp_right (List.mem_append_left _)
    · rw [List.mem_singleton.1 new]
      exact .inr (List.mem_append_right _ (List.mem_singleton_self _))

theorem Consults.next (h : Consults store request actions known) (action : Action) :
    Consults store request (actions ++ [action]) (consultNext request known action) := by
  have forgets := known.2.get?_forgets (.of request action)
  have answer := known.2.get?_fst (.of request action)
  unfold consultNext
  generalize known.2.get? (.of request action) = looked at forgets answer
  obtain ⟨found, after⟩ := looked
  cases found with
  | some d => exact h.decide forgets answer.symm
  | none => exact h.ask forgets action

end

theorem foldl_consultNext {store : DecisionStore Fingerprint} {request : Request}
    {actions rest : List Action} {known : Prefill × DecisionStore Fingerprint}
    (h : Consults store request actions known) :
    Consults store request (actions ++ rest) (rest.foldl (consultNext request) known) := by
  induction rest generalizing actions known with
  | nil => simpa using h
  | cons action rest ih =>
    have next := ih (h.next action)
    rwa [List.append_assoc] at next

/-- **What consulting a store finds, the store held at the beginning**, and what it does not
find is asked. -/
theorem consult_consults (store : DecisionStore Fingerprint) (request : Request) :
    Consults store request request.actions (consult store request) := by
  rw [consult_eq]
  have nothing : Consults store request [] ({}, store) :=
    ⟨.refl store, fun a d known => by simp at known, fun a f member => (nomatch member), nofun⟩
  exact foldl_consultNext nothing

end Client

end PolicyClient
