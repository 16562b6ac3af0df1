/-
# PolicyClient.Proofs.Cache.Laws -- what a cache of decisions remembers

A cache of decisions that does after every use what it has put off answers as its history says
(`DecisionCache.decisions_kept`).  An answer is what was put last under the key, and has not yet
lived for its span; and it is given as long as fewer other keys than there is room for have been put
or hit since the key was last.

This holds over any library of caches that applies its hooks (`AppliesExpiry`) and drops what was used
least recently (`ExactLru`).  What carries it is that whatever a cache holds under a key counts from
when it was put there last (`counts_of_held`), so that only the order of use has to be followed through
a history (`follows_after`).
-/
import PolicyClient.Proofs.Cache.Recency

namespace PolicyClient

set_option autoImplicit false

namespace DecisionCache

variable {σ κ : Type}

/-! ## Histories -/

/-- What is done with a cache of decisions. -/
inductive Use (κ : Type)
  | put (key : κ) (decision : Decision) (ttl : Duration)
  | putDefault (key : κ) (decision : Decision)
  | get (key : κ)
  /-- Time passes. -/
  | pass (d : Duration)

/-- How long a use takes. -/
def Use.span : Use κ → Duration
  | .pass d => d
  | _ => .zero

/-- What a use comes to for the cache below. -/
def Use.access (ttl : Duration) : Use κ → Access κ Entry
  | .put key decision span => .insert key ⟨decision, span⟩
  | .putDefault key decision => .insert key ⟨decision, ttl⟩
  | .get key => .get key
  | .pass d => .pass d

section

variable [CacheLibrary σ (perEntryTtl : Expiry κ Entry)]

/-- A use without the upkeep after it. -/
def apply (s : DecisionCache σ) : Use κ → DecisionCache σ
  | .put key decision ttl => s.put key decision ttl
  | .putDefault key decision => s.putDefault key decision
  | .get key => (s.get? key).2
  | .pass d => s.advance d

/-- A use, and upkeep. -/
def tend (s : DecisionCache σ) (u : Use κ) : DecisionCache σ := (s.apply u).sync

/-- The key that a use puts or hits. -/
def usedBy (s : DecisionCache σ) : Use κ → Option κ
  | .put key _ _ | .putDefault key _ => some key
  | .get key => if (s.get? key).1.isSome then some key else none
  | .pass _ => none

/-- A history, with upkeep after each use. -/
def after (s : DecisionCache σ) (us : List (Use κ)) : DecisionCache σ := us.foldl tend s

/-- The keys that a history puts or hits, one after another. -/
def used (s : DecisionCache σ) : List (Use κ) → List κ
  | [] => []
  | u :: later => (s.usedBy u).toList ++ (s.tend u).used later

/-- How much time has passed. -/
def clock (us : List (Use κ)) : Instant := us.foldl (fun t u => t + u.span) .zero

/-! ### One use more -/

theorem clock_snoc (us : List (Use κ)) (u : Use κ) : clock (us ++ [u]) = clock us + u.span := by
  simp [clock]

theorem clock_le_snoc (us : List (Use κ)) (u : Use κ) : clock us ≤ clock (us ++ [u]) := by
  rw [clock_snoc]
  exact Nat.le_add_right _ _

@[simp] theorem after_nil (s : DecisionCache σ) : s.after ([] : List (Use κ)) = s := rfl

@[simp] theorem after_snoc (s : DecisionCache σ) (us : List (Use κ)) (u : Use κ) :
    s.after (us ++ [u]) = (s.after us).tend u := by
  simp [after]

theorem after_append (s : DecisionCache σ) (us later : List (Use κ)) :
    s.after (us ++ later) = (s.after us).after later := by
  simp [after]

theorem used_snoc (s : DecisionCache σ) (us : List (Use κ)) (u : Use κ) :
    s.used (us ++ [u]) = s.used us ++ ((s.after us).usedBy u).toList := by
  induction us generalizing s with
  | nil => simp [used]
  | cons v us ih =>
    simp only [List.cons_append, used, ih, List.append_assoc]
    rfl

/-- What a use does to the cache below. -/
theorem cache_tend (s : DecisionCache σ) (u : Use κ) :
    (s.tend u).cache = CacheLibrary.tend s.cache (u.access s.ttl) := by
  cases u <;> rfl

theorem ttl_after (s : DecisionCache σ) (us : List (Use κ)) : (s.after us).ttl = s.ttl := by
  induction us using List.reverseRecOn with
  | nil => rfl
  | append_singleton us u ih =>
    rw [after_snoc, ← ih]
    cases u <;> rfl

open CacheLibrary (Kept)

variable {config : CacheConfig} {account : σ → Account κ Entry}

theorem cache_snoc (config : CacheConfig) (us : List (Use κ)) (u : Use κ) :
    ((ofConfig config : DecisionCache σ).after (us ++ [u])).cache =
      CacheLibrary.tend ((ofConfig config : DecisionCache σ).after us).cache (u.access config.ttl) := by
  rw [after_snoc, cache_tend, ttl_after]
  rfl

/-- No use leaves work behind. -/
theorem kept_after (config : CacheConfig) (us : List (Use κ)) :
    Kept config.capacity ((ofConfig config : DecisionCache σ).after us).cache := by
  induction us using List.reverseRecOn with
  | nil => exact .built
  | append_singleton us u ih =>
    rw [cache_snoc]
    exact .tended ih _

/-- The clock shows the time that has passed. -/
theorem now_after (applies : AppliesExpiry perEntryTtl config.capacity account) (us : List (Use κ)) :
    (account ((ofConfig config : DecisionCache σ).after us).cache).now = clock us := by
  induction us using List.reverseRecOn with
  | nil => exact applies.started
  | append_singleton us u ih =>
    rw [cache_snoc, applies.clock _ (kept_after config us), ih, clock_snoc]
    cases u <;> rfl

/-- A look-up gives the decision that is held within its time. -/
theorem get?_after (applies : AppliesExpiry perEntryTtl config.capacity account) (us : List (Use κ)) (key : κ) :
    (((ofConfig config : DecisionCache σ).after us).get? key).1 =
      ((account ((ofConfig config : DecisionCache σ).after us).cache).fresh? key).map fun h => h.value.decision := by
  have answer := applies.answers _ (kept_after config us) key
  show (CacheLibrary.get _ key).1.map Entry.decision = _
  rw [answer, Option.map_map]
  rfl

/-- The account knows which key a use puts or hits. -/
theorem usedBy_after (applies : AppliesExpiry perEntryTtl config.capacity account) (us : List (Use κ)) (u : Use κ) :
    ((ofConfig config : DecisionCache σ).after us).usedBy u =
      (account ((ofConfig config : DecisionCache σ).after us).cache).usedBy (u.access config.ttl) := by
  cases u with
  | get key =>
    rw [usedBy, get?_after applies, Option.isSome_map]
    rfl
  | _ => rfl

/-! ## What was put and used last -/

variable [DecidableEq κ]

/-- The decision and the span that a use stores under `key`; `ttl` is the span if it says none. -/
def Use.puts? (ttl : Duration) (key : κ) : Use κ → Option (Decision × Duration)
  | .put k d span => if k = key then some (d, span) else none
  | .putDefault k d => if k = key then some (d, ttl) else none
  | _ => none

/-- The last that was put under `key` is `d`, at `time` and for the span `ttl`. -/
def LastPut (default : Duration) (us : List (Use κ)) (key : κ) (d : Decision) (time : Instant)
    (ttl : Duration) : Prop :=
  ∃ before u since, us = before ++ u :: since ∧ u.puts? default key = some (d, ttl) ∧
    (∀ v ∈ since, v.puts? default key = none) ∧ time = clock before

/-- Since `key` was put or hit last, these other keys were. -/
def UsedSince (s : DecisionCache σ) (us : List (Use κ)) (key : κ) (others : Finset κ) : Prop :=
  ∃ before u since, us = before ++ u :: since ∧ (s.after before).usedBy u = some key ∧
    key ∉ (s.after (before ++ [u])).used since ∧
    others = ((s.after (before ++ [u])).used since).toFinset

/-- A place in a history with one use more is its end, or a place in the history. -/
theorem snoc_eq_append_cons_iff {α : Type} {l before since : List α} {x y : α} :
    l ++ [x] = before ++ y :: since ↔
      (since = [] ∧ before = l ∧ y = x) ∨ ∃ earlier, since = earlier ++ [x] ∧ l = before ++ y :: earlier := by
  induction since using List.reverseRecOn with
  | nil =>
    constructor
    · intro same
      obtain ⟨rfl, last⟩ := List.append_inj' same rfl
      exact .inl ⟨rfl, rfl, (List.cons.inj last).1.symm⟩
    · rintro (⟨-, rfl, rfl⟩ | ⟨earlier, none, -⟩)
      · rfl
      · simp at none
  | append_singleton earlier z =>
    have shape : before ++ y :: (earlier ++ [z]) = (before ++ y :: earlier) ++ [z] := by simp
    rw [shape]
    constructor
    · intro same
      obtain ⟨rfl, last⟩ := List.append_inj' same rfl
      obtain rfl := (List.cons.inj last).1
      exact .inr ⟨earlier, rfl, rfl⟩
    · rintro (⟨none, -⟩ | ⟨earlier', same, rfl⟩)
      · simp at none
      · obtain ⟨rfl, last⟩ := List.append_inj' same rfl
        rw [(List.cons.inj last).1]

theorem lastPut_snoc_iff {default : Duration} {us : List (Use κ)} {u : Use κ} {key : κ} {d : Decision}
    {time : Instant} {ttl : Duration} :
    LastPut default (us ++ [u]) key d time ttl ↔
      (u.puts? default key = some (d, ttl) ∧ time = clock us) ∨
        (u.puts? default key = none ∧ LastPut default us key d time ttl) := by
  constructor
  · rintro ⟨before, v, since, split, puts, later, rfl⟩
    obtain ⟨rfl, rfl, rfl⟩ | ⟨earlier, rfl, rfl⟩ := snoc_eq_append_cons_iff.mp split
    · exact .inl ⟨puts, rfl⟩
    · refine .inr ⟨later u (by simp), before, v, earlier, rfl, puts, ?_, rfl⟩
      intro w member
      exact later w (by simp [member])
  · rintro (⟨puts, rfl⟩ | ⟨other, before, v, since, rfl, puts, later, rfl⟩)
    · exact ⟨us, u, [], rfl, puts, nofun, rfl⟩
    · refine ⟨before, v, since ++ [u], by simp, puts, ?_, rfl⟩
      intro w member
      rcases List.mem_append.mp member with earlier | last
      · exact later w earlier
      · rw [List.mem_singleton.mp last]
        exact other

/-- No more than one decision was put last. -/
theorem LastPut.unique {default : Duration} {us : List (Use κ)} {key : κ} {d d' : Decision}
    {time time' : Instant} {ttl ttl' : Duration} (h : LastPut default us key d time ttl)
    (h' : LastPut default us key d' time' ttl') : d = d' ∧ time = time' ∧ ttl = ttl' := by
  induction us using List.reverseRecOn with
  | nil =>
    obtain ⟨before, u, since, split, -⟩ := h
    simp at split
  | append_singleton us u ih =>
    obtain ⟨puts, rfl⟩ | ⟨other, earlier⟩ := lastPut_snoc_iff.mp h
    · obtain ⟨puts', rfl⟩ | ⟨other', -⟩ := lastPut_snoc_iff.mp h'
      · rw [puts] at puts'
        cases puts'
        exact ⟨rfl, rfl, rfl⟩
      · rw [puts] at other'
        cases other'
    · obtain ⟨puts', -⟩ | ⟨-, earlier'⟩ := lastPut_snoc_iff.mp h'
      · rw [other] at puts'
        cases puts'
      · exact ih earlier earlier'

/-- Of the keys used since the last use of `key`, one use more is a use of it, or adds its key. -/
theorem usedSince_snoc {s : DecisionCache σ} {us : List (Use κ)} {u : Use κ} {key : κ} {others : Finset κ}
    (h : s.UsedSince (us ++ [u]) key others) :
    (s.after us).usedBy u = some key ∨ ((s.after us).usedBy u ≠ some key ∧
      ∃ fewer, s.UsedSince us key fewer ∧ others = fewer ∪ ((s.after us).usedBy u).toList.toFinset) := by
  obtain ⟨before, v, since, split, uses, clear, rfl⟩ := h
  obtain ⟨rfl, rfl, rfl⟩ | ⟨earlier, rfl, rfl⟩ := snoc_eq_append_cons_iff.mp split
  · exact .inl uses
  · have reached : (s.after (before ++ [v])).after earlier = s.after (before ++ v :: earlier) := by
      rw [← after_append]
      simp
    rw [used_snoc, reached] at clear ⊢
    rw [List.mem_append, not_or] at clear
    refine .inr ⟨?_, _, ⟨before, v, earlier, rfl, uses, clear.1, rfl⟩, List.toFinset_append⟩
    intro same
    exact clear.2 (by simp [same])

theorem usedBy_of_puts (s : DecisionCache σ) {default : Duration} {u : Use κ} {key : κ}
    {stored : Decision × Duration} (puts : u.puts? default key = some stored) : s.usedBy u = some key := by
  cases u with
  | put k d span =>
    have same : k = key := by
      by_contra differs
      simp [Use.puts?, differs] at puts
    rw [← same]
    rfl
  | putDefault k d =>
    have same : k = key := by
      by_contra differs
      simp [Use.puts?, differs] at puts
    rw [← same]
    rfl
  | get k => cases puts
  | pass d => cases puts

/-! ## Every history -/

/-- What is held counts from when it was put there last. -/
def Counts (default : Duration) (us : List (Use κ)) (key : κ) (h : Held Entry) : Prop :=
  ∃ time ttl, LastPut default us key h.value.decision time ttl ∧ h.expires = some (time + ttl)

/-- What a use leaves counts from when it was put there last, if what was held before did. -/
theorem counts_of_leaves (applies : AppliesExpiry perEntryTtl config.capacity account) {us : List (Use κ)}
    {u : Use κ} {key : κ} {h : Held Entry}
    (before : ∀ h, (account ((ofConfig config : DecisionCache σ).after us).cache).held key = some h →
      Counts config.ttl us key h)
    (leaves : (account ((ofConfig config : DecisionCache σ).after us).cache).Leaves perEntryTtl
      (u.access config.ttl) key h) : Counts config.ttl (us ++ [u]) key h := by
  have now := now_after applies us
  have goesOn : u.puts? config.ttl key = none → ∀ {h},
      (account ((ofConfig config : DecisionCache σ).after us).cache).held key = some h →
      Counts config.ttl (us ++ [u]) key h := by
    intro other h held
    obtain ⟨time, ttl, last, expires⟩ := before h held
    exact ⟨time, ttl, lastPut_snoc_iff.mpr (.inr ⟨other, last⟩), expires⟩
  have anew : ∀ {value}, u.access config.ttl = .insert key value →
      ∀ {h : Held Entry}, h = ⟨value, clock us, some (clock us + value.ttl)⟩ → Counts config.ttl (us ++ [u]) key h := by
    rintro value stores h rfl
    refine ⟨clock us, value.ttl, lastPut_snoc_iff.mpr (.inl ⟨?_, rfl⟩), rfl⟩
    cases u with
    | put k d span =>
      cases stores
      exact if_pos rfl
    | putDefault k d =>
      cases stores
      exact if_pos rfl
    | get k => cases stores
    | pass d => cases stores
  cases leaves with
  | untouched other held =>
    refine goesOn ?_ held
    rw [← usedBy_after applies] at other
    by_contra puts
    obtain ⟨stored, puts⟩ := Option.ne_none_iff_exists'.mp puts
    exact other (usedBy_of_puts _ puts)
  | found gets fresh =>
    obtain ⟨held, inTime⟩ := (Account.fresh?_eq_some_iff _ key _).mp fresh
    rw [perEntryTtl_read key inTime]
    refine goesOn ?_ held
    cases u with
    | get k => rfl
    | _ => cases gets
  | created stores vacant => exact anew stores (by rw [now]; rfl)
  | updated stores held => exact anew stores (by rw [now]; rfl)

/-- **What is held was put last.** -/
theorem counts_of_held (applies : AppliesExpiry perEntryTtl config.capacity account)
    (lru : ExactLru perEntryTtl config.capacity account) {us : List (Use κ)} {key : κ} {h : Held Entry}
    (held : (account ((ofConfig config : DecisionCache σ).after us).cache).held key = some h) :
    Counts config.ttl us key h := by
  induction us using List.reverseRecOn generalizing h with
  | nil =>
    have nothing : (account (CacheLibrary.build config.capacity)).held key = none := by
      rw [← not_ne_iff, ← lru.listed _ .built, lru.empty]
      exact List.not_mem_nil
    cases nothing.symm.trans held
  | append_singleton us u ih =>
    rw [cache_snoc] at held
    exact counts_of_leaves applies (fun h => ih) (applies.leaves _ (kept_after config us) _ key h held)

/-- **What was put last keeps its place** as long as its time has not passed, if fewer other keys than
there is room for have been used since its own. -/
theorem follows_after (applies : AppliesExpiry perEntryTtl config.capacity account)
    (lru : ExactLru perEntryTtl config.capacity account) {us : List (Use κ)} {key : κ} {d : Decision}
    {time : Instant} {ttl : Duration} {others : Finset κ} (last : LastPut config.ttl us key d time ttl)
    (fresh : clock us < time + ttl) (since : (ofConfig config : DecisionCache σ).UsedSince us key others)
    (few : others.card < config.capacity) :
    Follows others key (account ((ofConfig config : DecisionCache σ).after us).cache).order := by
  induction us using List.reverseRecOn generalizing others with
  | nil =>
    obtain ⟨before, u, later, split, -⟩ := last
    simp at split
  | append_singleton us u ih =>
    have kept := kept_after (σ := σ) config us
    have nodup := Account.nodup_orderAfter (lru.nodup kept) (u.access config.ttl)
    obtain ⟨expired, stale, order⟩ := lru.keeps _ kept (u.access config.ttl)
    rw [cache_snoc, order]
    -- What has gone because of its time was not put last, since the time of that has not passed.
    have stays : key ∉ expired := by
      intro gone
      obtain ⟨h, leaves, passed⟩ := stale key gone
      obtain ⟨time', ttl', last', expires⟩ :=
        counts_of_leaves applies (fun h => counts_of_held applies lru) leaves
      obtain ⟨-, rfl, rfl⟩ := last.unique last'
      have reached : (account ((ofConfig config : DecisionCache σ).after us).cache).now +
          (u.access config.ttl).span = clock (us ++ [u]) := by
        rw [now_after applies, clock_snoc]
        cases u <;> rfl
      rw [reached, Held.isFresh, expires] at passed
      simp [fresh] at passed
    refine ((Account.follows_orderAfter ?_ ?_).filter (by simp [stays])).rtake (nodup.filter _) few
    · rw [← usedBy_after applies]
      obtain used | ⟨unused, fewer, earlier, rfl⟩ := usedSince_snoc since
      · exact .inl used
      · refine .inr ((ih ?_ ?_ earlier ?_).mono Finset.subset_union_left)
        · obtain ⟨puts, -⟩ | ⟨-, before⟩ := lastPut_snoc_iff.mp last
          · exact absurd (usedBy_of_puts _ puts) unused
          · exact before
        · exact Nat.lt_of_le_of_lt (clock_le_snoc us u) fresh
        · exact Nat.lt_of_le_of_lt (Finset.card_le_card Finset.subset_union_left) few
    · rw [← usedBy_after applies]
      intro k user differs
      obtain used | ⟨-, fewer, -, rfl⟩ := usedSince_snoc since
      · exact absurd (Option.some.inj (user.symm.trans used)) differs
      · exact Finset.mem_union_right _ (by simp [user])

/-- **The laws of a cache of decisions** of any capacity, over any library of caches that applies its hooks
and drops what was used least recently, after any history with upkeep after each use.  It holds no
more than there is room for.  It answers with the decision that was put last under the key, before that
has lived for its span, and not otherwise; and it does answer so if fewer other keys than there is room
for have been put or hit since the key was last. -/
theorem decisions_kept (config : CacheConfig) (applies : AppliesExpiry perEntryTtl config.capacity account)
    (lru : ExactLru perEntryTtl config.capacity account) (us : List (Use κ)) :
    ((ofConfig config : DecisionCache σ).after us).size ≤ config.capacity ∧
    ∀ key d,
      ((((ofConfig config : DecisionCache σ).after us).get? key).1 = some d →
        ∃ time ttl, LastPut config.ttl us key d time ttl ∧ clock us < time + ttl) ∧
      ∀ time ttl others, LastPut config.ttl us key d time ttl → clock us < time + ttl →
        (ofConfig config : DecisionCache σ).UsedSince us key others → others.card < config.capacity →
        (((ofConfig config : DecisionCache σ).after us).get? key).1 = some d := by
  refine ⟨lru.count_le (kept_after config us), fun key d => ?_⟩
  rw [get?_after applies, Option.map_eq_some_iff]
  simp only [Account.fresh?_eq_some_iff, now_after applies]
  constructor
  · rintro ⟨h, ⟨held, fresh⟩, rfl⟩
    obtain ⟨time, ttl, last, expires⟩ := counts_of_held applies lru held
    rw [Held.isFresh, expires] at fresh
    exact ⟨time, ttl, last, of_decide_eq_true fresh⟩
  · intro time ttl others last fresh since few
    have place := (follows_after applies lru last fresh since few).mem
    obtain ⟨h, held⟩ := Option.ne_none_iff_exists'.mp ((lru.listed _ (kept_after config us) key).mp place)
    obtain ⟨time', ttl', last', expires⟩ := counts_of_held applies lru held
    obtain ⟨decision, rfl, rfl⟩ := last.unique last'
    refine ⟨h, ⟨held, ?_⟩, decision.symm⟩
    rw [Held.isFresh, expires]
    exact decide_eq_true fresh

end

/-- Room for two. -/
def narrow : CacheConfig := { capacity := 2 }

/-- The first of two keys is hit, and then a third one is put. -/
def threeKeys : List (Use String) :=
  [.putDefault "a" .allow, .put "b" .deny (.ofSeconds 5), .pass (.ofSeconds 1), .get "a",
    .putDefault "c" .allow]

/-- In the cache that runs the hit has saved the first key: the second one is gone. -/
theorem hit_saves :
    AppliesExpiry perEntryTtl narrow.capacity (LruStore.account : LruStore perEntryTtl → Account String Entry) ∧
      ExactLru perEntryTtl narrow.capacity (LruStore.account : LruStore perEntryTtl → Account String Entry) ∧
      (((ofConfig narrow : DecisionStore String).after threeKeys).get? "a").1 = some .allow ∧
      (((ofConfig narrow : DecisionStore String).after threeKeys).get? "b").1 = none := by
  have room : narrow.capacity ≠ 0 := by decide
  have applies : AppliesExpiry perEntryTtl narrow.capacity
      (LruStore.account : LruStore perEntryTtl → Account String Entry) := LruStore.appliesExpiry room
  have lru : ExactLru perEntryTtl narrow.capacity
      (LruStore.account : LruStore perEntryTtl → Account String Entry) := LruStore.exactLru room
  refine ⟨applies, lru, ?_, by decide +kernel⟩
  refine ((decisions_kept narrow applies lru threeKeys).2 "a" .allow).2 .zero narrow.ttl {"c"} ?_ ?_ ?_ ?_
  · exact ⟨[], .putDefault "a" .allow, _, rfl, rfl, by decide, rfl⟩
  · decide
  · refine ⟨[.putDefault "a" .allow, .put "b" .deny (.ofSeconds 5), .pass (.ofSeconds 1)], .get "a",
      [.putDefault "c" .allow], rfl, by decide +kernel, by decide +kernel, by decide +kernel⟩
  · decide

end DecisionCache

end PolicyClient
