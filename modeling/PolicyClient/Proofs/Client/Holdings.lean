/-
# PolicyClient.Proofs.Client.Holdings -- who holds the checks that wait

A check that waits is held in one place: the open batch, or the items of one batch under
way.  `Client.holdings` lists what is held, each token with the batch that holds it, and
`Client.Sound` is the invariant: what is held is held once, what waits is held by the batch
it is registered under, and the accounts of every attempt are in order.  A batch that broke
off is the only one whose checks may wait without being held.

The moves that a client is made of keep the invariant: calls end (`Sound.ends`), a dispatch
goes on with some of its items (`Sound.keep`), is over (`Sound.finish`) or breaks off
(`Sound.breakOff`), the open batch leaves (`Sound.departure`) or takes a check in
(`Sound.enrol`).
-/
import Mathlib.Data.List.Flatten
import Mathlib.Data.List.Nodup
import PolicyClient.Client
import PolicyClient.Proofs.Client.Accounts
import PolicyClient.Proofs.Lifecycle.Closing

namespace PolicyClient

set_option autoImplicit false

open Correlator (Ends Fails)
open Exchange (named Balanced Closed)

namespace Client

/-! ## Holdings -/

/-- Every token that a batch holds, with that batch: the open one first, then those under
way. -/
def holdings (c : Client) : List (Token × BatchId) :=
  (named c.openBatch.items).map (·, c.openBatch.id) ++
    c.dispatches.flatMap fun d => (named d.items).map (·, d.id)

theorem mem_holdings_iff (c : Client) (t : Token) (b : BatchId) :
    (t, b) ∈ c.holdings ↔ (t ∈ named c.openBatch.items ∧ c.openBatch.id = b) ∨
      ∃ d ∈ c.dispatches, t ∈ named d.items ∧ d.id = b := by
  simp only [holdings, List.mem_append, List.mem_map, List.mem_flatMap, Prod.mk.injEq]
  constructor
  · rintro (⟨_, member, rfl, rfl⟩ | ⟨d, under, _, member, rfl, rfl⟩)
    · exact .inl ⟨member, rfl⟩
    · exact .inr ⟨d, under, member, rfl⟩
  · rintro (⟨member, rfl⟩ | ⟨d, under, member, rfl⟩)
    · exact .inl ⟨t, member, rfl, rfl⟩
    · exact .inr ⟨d, under, t, member, rfl, rfl⟩

/-! ## Dispatches -/

/-- The ids of the batches under way stay when one of them goes on. -/
theorem map_id_keep (c : Client) {d' : Dispatch} :
    (c.keep d').dispatches.map Dispatch.id = c.dispatches.map Dispatch.id := by
  rw [Client.keep, List.map_map]
  refine List.map_congr_left fun d _ => ?_
  by_cases same : d.id = d'.id <;> simp [same]

theorem mem_keep (c : Client) {d' e : Dispatch} (member : e ∈ (c.keep d').dispatches) :
    e = d' ∨ (e ∈ c.dispatches ∧ e.id ≠ d'.id) := by
  obtain ⟨e₀, member₀, rfl⟩ := List.mem_map.1 member
  by_cases same : e₀.id = d'.id
  · rw [if_pos same]
    exact .inl rfl
  · rw [if_neg same]
    exact .inr ⟨member₀, same⟩

theorem mem_keep_self (c : Client) {d d' : Dispatch} (member : d ∈ c.dispatches) (id : d'.id = d.id) :
    d' ∈ (c.keep d').dispatches :=
  List.mem_map.2 ⟨d, member, if_pos id.symm⟩

theorem mem_keep_of_ne (c : Client) {d' e : Dispatch} (member : e ∈ c.dispatches) (other : e.id ≠ d'.id) :
    e ∈ (c.keep d').dispatches :=
  List.mem_map.2 ⟨e, member, if_neg other⟩

/-! ## The invariant -/

/-- The invariant of a client. -/
structure Sound (c : Client) : Prop where
  coherent : c.correlator.Coherent
  distinct : (c.holdings.map Prod.fst).Nodup
  issued : ∀ t b, (t, b) ∈ c.holdings → t.number ≤ c.ids.tokens
  known : ∀ t w, c.correlator.waiters.get? t = some w → t.number ≤ c.ids.tokens
  latest : c.openBatch.id.number = c.ids.batches
  earlier : ∀ d ∈ c.dispatches, d.id.number < c.ids.batches
  apart : (c.dispatches.map Dispatch.id).Nodup
  broken : ∀ b ∈ c.broken, b.number < c.ids.batches ∧ ∀ d ∈ c.dispatches, d.id ≠ b
  held : ∀ t w, c.correlator.waiters.get? t = some w → w.batch ∈ c.broken ∨ (t, w.batch) ∈ c.holdings
  own : ∀ t b, (t, b) ∈ c.holdings → ∀ w, c.correlator.waiters.get? t = some w → w.batch = b
  accounts : ∀ d ∈ c.dispatches, ∀ deadline a, d.phase = .reading deadline a →
    ∀ s, Balanced d.items ⟨a, c.correlator, s⟩
  closed : c.lifecycle.state = .closed →
    c.lifecycle.closedReason ≠ none ∧ ∀ t, c.correlator.waiters.get? t = none

namespace Sound

variable {c : Client}

theorem unique (h : c.Sound) {d d' : Dispatch} (member : d ∈ c.dispatches)
    (member' : d' ∈ c.dispatches) (same : d.id = d'.id) : d = d' :=
  List.inj_on_of_nodup_map h.apart member member' same

theorem not_open (h : c.Sound) {d : Dispatch} (member : d ∈ c.dispatches) :
    c.openBatch.id ≠ d.id := by
  intro same
  have := h.earlier d member
  have := h.latest
  rw [same] at this
  omega

/-- A check that waits in a batch under way is one of its items. -/
theorem mem_items (h : c.Sound) {d : Dispatch} (member : d ∈ c.dispatches) {t : Token} {w : Waiter}
    (found : c.correlator.waiters.get? t = some w) (batch : w.batch = d.id) : t ∈ named d.items := by
  rcases h.held t w found with broken | held
  · exact absurd batch.symm ((h.broken _ broken).2 d member)
  · rcases (c.mem_holdings_iff _ _).1 held with ⟨-, same⟩ | ⟨d', member', item, same⟩
    · exact absurd (same.trans batch) (h.not_open member)
    · rw [h.unique member member' (batch.symm.trans same.symm)]
      exact item

/-- An item of a batch under way that waits is registered under that batch. -/
theorem batch_eq (h : c.Sound) {d : Dispatch} (member : d ∈ c.dispatches) {t : Token} {w : Waiter}
    (item : t ∈ named d.items) (found : c.correlator.waiters.get? t = some w) : w.batch = d.id :=
  h.own t d.id ((c.mem_holdings_iff _ _).2 (.inr ⟨d, member, item, rfl⟩)) w found

/-- A batch none of whose items waits has nothing waiting under it. -/
theorem nobody_waits (h : c.Sound) {d : Dispatch} (member : d ∈ c.dispatches)
    (silent : ∀ t ∈ named d.items, c.correlator.isLive t = false) {t : Token} {w : Waiter}
    (found : c.correlator.waiters.get? t = some w) : w.batch ≠ d.id := by
  intro batch
  have live := (c.correlator.isLive_iff t).2 ⟨w, found⟩
  rw [silent t (h.mem_items member found batch)] at live
  cases live

/-! ## Moves -/

/-- The invariant does not depend on the rest of a client. -/
theorem congr {c' : Client} (h : c.Sound) (correlator : c'.correlator = c.correlator)
    (ids : c'.ids = c.ids) (openBatch : c'.openBatch = c.openBatch)
    (dispatches : c'.dispatches = c.dispatches) (broken : c'.broken = c.broken)
    (lifecycle : c.lifecycle.Quiet c'.lifecycle) : c'.Sound := by
  have holdings : c'.holdings = c.holdings := by rw [Client.holdings, Client.holdings, openBatch, dispatches]
  refine ⟨by rw [correlator]; exact h.coherent, by rw [holdings]; exact h.distinct, ?_, ?_, ?_, ?_,
    ?_, ?_, ?_, ?_, ?_, ?_⟩
  · rw [holdings, ids]; exact h.issued
  · rw [correlator, ids]; exact h.known
  · rw [openBatch, ids]; exact h.latest
  · rw [dispatches, ids]; exact h.earlier
  · rw [dispatches]; exact h.apart
  · rw [broken, ids, dispatches]; exact h.broken
  · rw [correlator, broken, holdings]; exact h.held
  · rw [correlator, holdings]; exact h.own
  · rw [dispatches, correlator]; exact h.accounts
  · intro closed
    rw [lifecycle.reason, correlator]
    exact h.closed (lifecycle.closed closed)

/-- Calls end. -/
theorem ends (h : c.Sound) {k : Correlator} (ends : Ends c.correlator k) :
    Sound { c with correlator := k } where
  coherent := ends.coherent
  distinct := h.distinct
  issued := h.issued
  known t w found := h.known t w (ends.waited t w found)
  latest := h.latest
  earlier := h.earlier
  apart := h.apart
  broken := h.broken
  held t w found := h.held t w (ends.waited t w found)
  own t b member w found := h.own t b member w (ends.waited t w found)
  accounts d member deadline a phase s :=
    have before := h.accounts d member deadline a phase s
    { before with
      coherent := ends.coherent
      due := fun t item live => before.due t item (ends.isLive live) }
  closed state := ⟨(h.closed state).1, fun t => by
    cases found : k.waiters.get? t with
    | none => rfl
    | some w =>
      have before := ends.waited t w found
      rw [(h.closed state).2 t] at before
      cases before⟩

/-- Every call ends, and the session with them. -/
theorem shut (h : c.Sound) {k : Correlator} {l : Lifecycle} (ends : Ends c.correlator k)
    (silent : ∀ t, k.waiters.get? t = none) (reason : l.closedReason ≠ none) :
    Sound { c with lifecycle := l, correlator := k } :=
  { h.ends ends with closed := fun _ => ⟨reason, silent⟩ }

/-- A dispatch that goes on with some of its items holds nothing new. -/
theorem holdings_keep (h : c.Sound) {d d' : Dispatch} (member : d ∈ c.dispatches) (id : d'.id = d.id)
    (items : (named d'.items).Sublist (named d.items)) : (c.keep d').holdings.Sublist c.holdings := by
  refine List.Sublist.append (.refl _) ?_
  simp only [Client.keep, List.flatMap_map]
  refine List.Sublist.flatMap_right _ fun e under => ?_
  by_cases same : e.id = d'.id
  · rw [if_pos same, h.unique under member (same.trans id), id]
    exact items.map _
  · rw [if_neg same]

/-- A dispatch goes on with all its items that still wait. -/
theorem keep (h : c.Sound) {d d' : Dispatch} (member : d ∈ c.dispatches) (id : d'.id = d.id)
    (items : (named d'.items).Sublist (named d.items))
    (stay : ∀ t ∈ named d.items, c.correlator.isLive t = true → t ∈ named d'.items)
    (accounts : ∀ deadline a, d'.phase = .reading deadline a →
      ∀ s, Balanced d'.items ⟨a, c.correlator, s⟩) : (c.keep d').Sound where
  coherent := h.coherent
  distinct := h.distinct.sublist ((h.holdings_keep member id items).map _)
  issued t b held := h.issued t b ((h.holdings_keep member id items).subset held)
  known := h.known
  latest := h.latest
  earlier e member' := by
    rcases c.mem_keep member' with rfl | ⟨before, -⟩
    · rw [id]
      exact h.earlier d member
    · exact h.earlier e before
  apart := by
    rw [map_id_keep]
    exact h.apart
  broken b broken := by
    refine ⟨(h.broken b broken).1, ?_⟩
    intro e member'
    rcases c.mem_keep member' with rfl | ⟨before, -⟩
    · rw [id]
      exact (h.broken b broken).2 d member
    · exact (h.broken b broken).2 e before
  held t w found := by
    refine (h.held t w found).imp_right fun held => ?_
    rw [mem_holdings_iff] at held ⊢
    refine held.imp_right fun ⟨e, under, item, batch⟩ => ?_
    by_cases same : e.id = d'.id
    · rw [h.unique under member (same.trans id)] at item batch
      exact ⟨d', c.mem_keep_self member id,
        stay t item ((c.correlator.isLive_iff t).2 ⟨w, found⟩), id.trans batch⟩
    · exact ⟨e, c.mem_keep_of_ne under same, item, batch⟩
  own t b held := h.own t b ((h.holdings_keep member id items).subset held)
  accounts e member' deadline a phase s := by
    rcases c.mem_keep member' with rfl | ⟨before, -⟩
    · exact accounts deadline a phase s
    · exact h.accounts e before deadline a phase s
  closed := h.closed

/-- A dispatch is given up.  Its checks may wait on if it counts as broken. -/
theorem remove (h : c.Sound) {d : Dispatch} (member : d ∈ c.dispatches) (extra : List BatchId)
    (only : ∀ b ∈ extra, b = d.id)
    (left : ∀ t w, c.correlator.waiters.get? t = some w → w.batch = d.id → d.id ∈ extra) :
    Sound { c with
      dispatches := c.dispatches.filter fun e => e.id ≠ d.id
      broken := c.broken ++ extra } := by
  have under : ∀ e ∈ c.dispatches.filter (fun e => e.id ≠ d.id), e ∈ c.dispatches ∧ e.id ≠ d.id :=
    fun e member' => ⟨(List.mem_filter.1 member').1, by simpa using (List.mem_filter.1 member').2⟩
  have sub : (holdings { c with
      dispatches := c.dispatches.filter fun e => e.id ≠ d.id
      broken := c.broken ++ extra }).Sublist c.holdings :=
    List.Sublist.append (.refl _) (List.filter_sublist.flatMap _)
  refine ⟨h.coherent, h.distinct.sublist (sub.map _),
    fun t b held => h.issued t b (sub.subset held), h.known, h.latest,
    fun e member' => h.earlier e (under e member').1, h.apart.sublist (List.filter_sublist.map _),
    ?_, ?_, fun t b held => h.own t b (sub.subset held),
    fun e member' => h.accounts e (under e member').1, h.closed⟩
  · intro b broken
    rcases List.mem_append.1 broken with before | new
    · exact ⟨(h.broken b before).1, fun e member' => (h.broken b before).2 e (under e member').1⟩
    · rw [only b new]
      exact ⟨h.earlier d member, fun e member' => (under e member').2⟩
  · intro t w found
    by_cases batch : w.batch = d.id
    · rw [batch]
      exact .inl (List.mem_append_right _ (left t w found batch))
    · refine (h.held t w found).imp (List.mem_append_left _) fun held => ?_
      rw [mem_holdings_iff] at held ⊢
      refine held.imp_right fun ⟨e, before, item, same⟩ => ⟨e, ?_, item, same⟩
      exact List.mem_filter.2 ⟨before, by simpa [same] using batch⟩

/-- A dispatch with nothing waiting under it is over. -/
theorem finish (h : c.Sound) {d : Dispatch} (member : d ∈ c.dispatches)
    (none : ∀ t w, c.correlator.waiters.get? t = some w → w.batch ≠ d.id) : (c.finish d.id).Sound :=
  (h.remove member [] nofun fun t w found batch => absurd batch (none t w found)).congr
    rfl rfl rfl rfl (List.append_nil _).symm (.refl _)

theorem breakOff (h : c.Sound) {d : Dispatch} (member : d ∈ c.dispatches) : (c.breakOff d.id).Sound :=
  h.remove member [d.id] (fun _ => List.mem_singleton.1) fun _ _ _ _ =>
    List.mem_singleton_self _

/-! ## Filling batches -/

theorem mem_holdings_departure (c : Client) (t : Token) (b : BatchId) :
    (t, b) ∈ c.departure.2.holdings ↔ (t, b) ∈ c.holdings := by
  simp only [mem_holdings_iff, Client.departure, OpenBatch.close, List.mem_append,
    List.mem_singleton]
  constructor
  · rintro (⟨none, -⟩ | ⟨d, before | rfl, item, batch⟩)
    · cases none
    · exact .inr ⟨d, before, item, batch⟩
    · exact .inl ⟨item, batch⟩
  · rintro (⟨item, batch⟩ | ⟨d, before, item, batch⟩)
    · exact .inr ⟨_, .inr rfl, item, batch⟩
    · exact .inr ⟨d, .inl before, item, batch⟩

/-- The open batch leaves: what it held, its dispatch holds. -/
theorem departure (h : c.Sound) : c.departure.2.Sound where
  coherent := h.coherent
  distinct := by
    refine (List.Perm.nodup_iff (List.Perm.map _ ?_)).2 h.distinct
    simp only [holdings, Client.departure, OpenBatch.close, List.map_nil, List.nil_append,
      List.flatMap_append, List.flatMap_singleton]
    exact List.perm_append_comm
  issued t b held := h.issued t b ((mem_holdings_departure c t b).1 held)
  known := h.known
  latest := rfl
  earlier d member := by
    have latest := h.latest
    change d.id.number < c.ids.batches + 1
    rcases List.mem_append.1 member with before | new
    · have := h.earlier d before
      omega
    · rw [List.mem_singleton.1 new]
      change c.openBatch.id.number < _
      omega
  apart := by
    simp only [Client.departure, List.map_append]
    refine List.nodup_append.2 ⟨h.apart, List.nodup_singleton _, fun b before b' new same => ?_⟩
    obtain ⟨d, member, rfl⟩ := List.mem_map.1 before
    exact h.not_open member ((List.mem_singleton.1 new).symm.trans same.symm)
  broken b broken := by
    have latest := h.latest
    have lt := (h.broken b broken).1
    refine ⟨Nat.lt_succ_of_lt lt, ?_⟩
    intro d member
    rcases List.mem_append.1 member with before | new
    · exact (h.broken b broken).2 d before
    · rw [List.mem_singleton.1 new]
      intro same
      rw [← same] at lt
      exact absurd latest (Nat.ne_of_lt lt)
  held t w found := (h.held t w found).imp_right (mem_holdings_departure c t w.batch).2
  own t b held := h.own t b ((mem_holdings_departure c t b).1 held)
  accounts d member deadline a phase := by
    rcases List.mem_append.1 member with before | new
    · exact h.accounts d before deadline a phase
    · rw [List.mem_singleton.1 new] at phase
      cases phase
  closed := h.closed

/-- The open batch holds what it takes in, under its own id. -/
theorem mem_holdings_add (c : Client) (k : Correlator) (item : Item) (size : Nat) (t : Token) (b : BatchId) :
    (t, b) ∈ holdings { c with correlator := k, openBatch := c.openBatch.add item size } ↔
      (t, b) ∈ c.holdings ∨ (t = item.token ∧ b = c.openBatch.id) := by
  simp only [mem_holdings_iff, OpenBatch.add, List.map_append, List.map_cons, List.map_nil,
    List.mem_append, List.mem_singleton]
  constructor
  · rintro (⟨before | new, batch⟩ | under)
    · exact .inl (.inl ⟨before, batch⟩)
    · exact .inr ⟨new, batch.symm⟩
    · exact .inl (.inr under)
  · rintro ((⟨before, batch⟩ | under) | ⟨new, batch⟩)
    · exact .inl ⟨.inl before, batch⟩
    · exact .inr under
    · exact .inl ⟨.inr new, batch.symm⟩

/-- The open batch takes in a check that has never been seen, and it waits from now on. -/
theorem enrol (h : c.Sound) (item : Item) (prefill : Prefill) (size : Nat)
    (free : c.correlator.waiters.get? item.token = none)
    (unheld : ∀ b, (item.token, b) ∉ c.holdings) (issued : item.token.number ≤ c.ids.tokens)
    (running : c.lifecycle.state ≠ .closed) :
    Sound { c with
      correlator := (c.correlator.register item.token c.openBatch.id prefill).2
      openBatch := c.openBatch.add item size } := by
  have registers := Correlator.register_registers h.coherent free c.openBatch.id prefill
  have known : ∀ t w, (c.correlator.register item.token c.openBatch.id prefill).2.waiters.get? t = some w →
      (t = item.token ∧ w = ⟨c.openBatch.id, c.correlator.mail.length, prefill⟩) ∨
        (t ≠ item.token ∧ c.correlator.waiters.get? t = some w) :=
    fun t w found => Correlator.known_of_waiting registers.waiting found
  have mem := mem_holdings_add c (c.correlator.register item.token c.openBatch.id prefill).2 item size
  refine ⟨registers.coherent, ?_, ?_, ?_, h.latest, h.earlier, h.apart, h.broken, ?_, ?_, ?_,
    fun closed => absurd closed running⟩
  · have fresh : item.token ∉ c.holdings.map Prod.fst := fun member => by
      obtain ⟨⟨t, b⟩, held, rfl⟩ := List.mem_map.1 member
      exact unheld b held
    have perm : ((holdings { c with
        correlator := (c.correlator.register item.token c.openBatch.id prefill).2
        openBatch := c.openBatch.add item size }).map Prod.fst).Perm
          (item.token :: c.holdings.map Prod.fst) := by
      simp only [holdings, OpenBatch.add, List.map_append, List.map_cons, List.map_nil,
        List.append_assoc, List.singleton_append]
      exact List.perm_middle
    exact perm.nodup_iff.2 (List.nodup_cons.2 ⟨fresh, h.distinct⟩)
  · intro t b held
    rcases (mem t b).1 held with before | ⟨rfl, -⟩
    · exact h.issued t b before
    · exact issued
  · intro t w found
    rcases known t w found with ⟨rfl, -⟩ | ⟨-, before⟩
    · exact issued
    · exact h.known t w before
  · intro t w found
    rcases known t w found with ⟨same, rfl⟩ | ⟨-, before⟩
    · exact .inr ((mem t _).2 (.inr ⟨same, rfl⟩))
    · exact (h.held t w before).imp_right fun held => (mem t w.batch).2 (.inl held)
  · intro t b held w found
    rcases known t w found with ⟨rfl, rfl⟩ | ⟨other, before⟩
    · rcases (mem _ b).1 held with held | ⟨-, same⟩
      · exact absurd held (unheld b)
      · exact same.symm
    · rcases (mem t b).1 held with held | ⟨same, -⟩
      · exact h.own t b held w before
      · exact absurd same other
  · intro d member deadline a phase s
    have before := h.accounts d member deadline a phase s
    refine { before with coherent := registers.coherent, due := fun t item' live => ?_ }
    obtain ⟨w, found⟩ := (Correlator.isLive_iff _ t).1 live
    rcases known t w found with ⟨same, -⟩ | ⟨-, waits⟩
    · rw [same] at item'
      exact absurd ((c.mem_holdings_iff _ _).2 (.inr ⟨d, member, item', rfl⟩)) (unheld d.id)
    · exact before.due t item' ((Correlator.isLive_iff _ t).2 ⟨w, waits⟩)

end Sound

end Client

end PolicyClient
