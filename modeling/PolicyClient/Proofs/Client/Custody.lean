/-
# PolicyClient.Proofs.Client.Custody -- every function of a client keeps custody

What a function of the client does to the checks is said once for each of them:
`Client.Carries` when results may be taken in, and `Client.Lapses` when none is.  Both say
that the invariant holds afterwards, that calls only end, and that nobody comes to owe an
answer who did not owe it before.  A dispatch owes an answer (`Dispatch.owes`) for all its
items, and while it reads replies for those that are unanswered or to be sent again.

No path of the retry loop forgets a check: it is settled, or fails with its batch or with
the session, or the dispatch goes on with it.  Only a dispatch that breaks off does not.
-/
import PolicyClient.Proofs.Client.Holdings
import PolicyClient.Proofs.Client.Submission

namespace PolicyClient

set_option autoImplicit false

open Correlator (Ends Fails)
open Exchange (named Balanced Closed)

/-! ## Who owes an answer -/

/-- Whether this dispatch has still to see to `t`. -/
def Dispatch.owes (d : Dispatch) (t : Token) : Prop :=
  match d.phase with
  | .reading _ a => t ∈ a.unanswered ∨ t ∈ a.retry
  | _ => t ∈ named d.items

namespace Client

/-- Whether somebody has still to see to `t`. -/
def owes (c : Client) (t : Token) : Prop :=
  t ∈ named c.openBatch.items ∨ ∃ d ∈ c.dispatches, d.owes t

/-- What is owed is held. -/
theorem Sound.item_of_owes {c : Client} (h : c.Sound) {d : Dispatch} (member : d ∈ c.dispatches)
    {t : Token} (owed : d.owes t) : t ∈ named d.items := by
  unfold Dispatch.owes at owed
  split at owed
  · rename_i phase
    have balanced := h.accounts d member _ _ phase c.stats
    exact owed.elim (balanced.unanswered t) (balanced.retry t)
  · exact owed

theorem Sound.issued_of_owes {c : Client} (h : c.Sound) {t : Token} (owed : c.owes t) :
    t.number ≤ c.ids.tokens := by
  rcases owed with filling | ⟨d, member, owed⟩
  · exact h.issued t _ ((c.mem_holdings_iff t _).2 (.inl ⟨filling, rfl⟩))
  · exact h.issued t _ ((c.mem_holdings_iff t _).2 (.inr ⟨d, member, h.item_of_owes member owed, rfl⟩))

/-! ## What a function does -/

/-- Checks may have ended, and custody of the others is kept. -/
structure Carries (c c' : Client) : Prop where
  sound : c'.Sound
  ends : Ends c.correlator c'.correlator
  tokens : c'.ids.tokens = c.ids.tokens
  batches : c.ids.batches ≤ c'.ids.batches
  owes : ∀ t, c'.owes t → c.owes t

/-- Custody is kept, and no check has got an answer. -/
structure Lapses (c c' : Client) : Prop extends Carries c c' where
  fails : Fails c.correlator c'.correlator

theorem Carries.trans {c c' c'' : Client} (first : Carries c c') (second : Carries c' c'') :
    Carries c c'' where
  sound := second.sound
  ends := first.ends.trans second.ends
  tokens := second.tokens.trans first.tokens
  batches := Nat.le_trans first.batches second.batches
  owes t owed := first.owes t (second.owes t owed)

namespace Sound

variable {c c' c'' : Client}

theorem refl (h : c.Sound) : Lapses c c where
  sound := h
  ends := .refl h.coherent
  tokens := rfl
  batches := Nat.le_refl _
  owes _ := id
  fails := .refl h.coherent

theorem trans (h : c.Sound) (first : Lapses c c') (second : Lapses c' c'') : Lapses c c'' where
  toCarries := first.toCarries.trans second.toCarries
  fails := first.fails.trans h.coherent second.fails

/-- What does not touch custody carries it on. -/
theorem aside (h : c.Sound) (correlator : c'.correlator = c.correlator) (ids : c'.ids = c.ids)
    (openBatch : c'.openBatch = c.openBatch) (dispatches : c'.dispatches = c.dispatches)
    (broken : c'.broken = c.broken) (lifecycle : c.lifecycle.Quiet c'.lifecycle) : Lapses c c' where
  sound := h.congr correlator ids openBatch dispatches broken lifecycle
  ends := by rw [correlator]; exact .refl h.coherent
  tokens := by rw [ids]
  batches := Nat.le_of_eq (congrArg IdSource.batches ids.symm)
  owes t owed := by
    rw [Client.owes, openBatch, dispatches] at owed
    exact owed
  fails := by rw [correlator]; exact .refl h.coherent

theorem lapse (h : c.Sound) {k : Correlator} (fails : Fails c.correlator k) :
    Lapses c { c with correlator := k } where
  sound := h.ends fails.toEnds
  ends := fails.toEnds
  tokens := rfl
  batches := Nat.le_refl _
  owes _ := id
  fails := fails

theorem owes_keep {d d' : Dispatch} (member : d ∈ c.dispatches)
    (owes : ∀ t, d'.owes t → d.owes t) {t : Token} (owed : (c.keep d').owes t) : c.owes t := by
  refine owed.imp_right fun ⟨e, under, owing⟩ => ?_
  rcases c.mem_keep under with rfl | ⟨before, -⟩
  · exact ⟨d, member, owes t owing⟩
  · exact ⟨e, before, owing⟩

theorem goOn (h : c.Sound) {d d' : Dispatch} (member : d ∈ c.dispatches) (id : d'.id = d.id)
    (items : (named d'.items).Sublist (named d.items))
    (stay : ∀ t ∈ named d.items, c.correlator.isLive t = true → t ∈ named d'.items)
    (accounts : ∀ deadline a, d'.phase = .reading deadline a →
      ∀ s, Balanced d'.items ⟨a, c.correlator, s⟩)
    (owes : ∀ t, d'.owes t → d.owes t) : Lapses c (c.keep d') where
  sound := h.keep member id items stay accounts
  ends := .refl h.coherent
  tokens := rfl
  batches := Nat.le_refl _
  owes _ := owes_keep member owes
  fails := .refl h.coherent

theorem stop (h : c.Sound) {d : Dispatch} (member : d ∈ c.dispatches)
    (none : ∀ t w, c.correlator.waiters.get? t = some w → w.batch ≠ d.id) :
    Lapses c (c.finish d.id) where
  sound := h.finish member none
  ends := .refl h.coherent
  tokens := rfl
  batches := Nat.le_refl _
  owes _ owed := owed.imp_right fun ⟨e, under, owed⟩ => ⟨e, (List.mem_filter.1 under).1, owed⟩
  fails := .refl h.coherent

theorem giveUp (h : c.Sound) {d : Dispatch} (member : d ∈ c.dispatches) :
    Lapses c (c.breakOff d.id) where
  sound := h.breakOff member
  ends := .refl h.coherent
  tokens := rfl
  batches := Nat.le_refl _
  owes _ owed := owed.imp_right fun ⟨e, under, owed⟩ => ⟨e, (List.mem_filter.1 under).1, owed⟩
  fails := .refl h.coherent

/-! ## Filling batches -/

theorem leave (h : c.Sound) : Lapses c c.departure.2 where
  sound := h.departure
  ends := .refl h.coherent
  tokens := rfl
  batches := Nat.le_succ _
  owes t owed := by
    rcases owed with filling | ⟨d, under, owed⟩
    · cases filling
    · rcases List.mem_append.1 under with before | new
      · exact .inr ⟨d, before, owed⟩
      · rw [List.mem_singleton.1 new] at owed
        exact .inl owed
  fails := .refl h.coherent

theorem flush (h : c.Sound) : Lapses c c.flush.2 := by
  unfold Client.flush
  split
  · exact h.refl
  · exact h.leave

theorem onFlushTimer (h : c.Sound) (b : BatchId) : Lapses c (c.onFlushTimer b).2 := by
  have quiet : Lapses c { c with timers := c.timers.filter fun t => t.batch ≠ b } :=
    h.aside rfl rfl rfl rfl rfl (.refl _)
  simp only [Client.onFlushTimer]
  split
  · exact h.trans quiet quiet.sound.flush
  · exact quiet

/-! ## Closing -/

theorem closeWith (h : c.Sound) (reason : String) (e : Error) :
    Lapses c (c.closeWith reason e) ∧
      ∀ t, (c.closeWith reason e).correlator.waiters.get? t = none := by
  by_cases closed : c.lifecycle.state = .closed
  · have same : c.closeWith reason e = c := by
      simp [Client.closeWith, Lifecycle.close_of_closed closed]
    rw [same]
    exact ⟨h.refl, (h.closed closed).2⟩
  · have fails := Correlator.failAll_fails h.coherent e
    have silent := Correlator.failAll_gone h.coherent e
    simp only [Client.closeWith, Lifecycle.close_of_open closed]
    refine ⟨⟨⟨h.shut fails.toEnds silent ?_, fails.toEnds, rfl, Nat.le_refl _, fun _ => id⟩, fails⟩,
      silent⟩
    simp [Lifecycle.moveTo_closedReason]

theorem close (h : c.Sound) : Lapses c c.close.2 :=
  have closed := (h.closeWith "closed by caller" (.sessionClosed "closed by caller")).1
  h.trans closed closed.sound.flush

theorem abandon (h : c.Sound) : Lapses c c.abandon := by
  unfold Client.abandon
  split
  · exact h.lapse (Correlator.abandonAll_fails h.coherent)
  · exact h.refl

theorem onLink (h : c.Sound) (up : Bool) : Lapses c (c.onLink up) := by
  refine h.aside rfl rfl rfl rfl rfl ?_
  cases up with
  | true => exact c.lifecycle.onLinkUp_quiet
  | false => exact c.lifecycle.onLinkDown_quiet

/-! ## The steps of a dispatch -/

theorem send (h : c.Sound) {d d' : Dispatch} (member : d ∈ c.dispatches) (id : d'.id = d.id)
    (items : (named d'.items).Sublist (named d.items))
    (stay : ∀ t ∈ named d.items, c.correlator.isLive t = true → t ∈ named d'.items)
    (owes : ∀ t ∈ named d'.items, d.owes t) : Lapses c (c.send d').2 := by
  unfold Client.send
  simp only
  split
  · rw [id]
    exact h.giveUp member
  · have counted : Lapses c { c with stats := c.stats.recordDispatch d'.items.length } :=
      h.aside rfl rfl rfl rfl rfl (.refl _)
    refine h.trans counted (counted.sound.goOn member id items stay ?_ fun t owed => ?_)
    · intro deadline a phase s
      cases phase
      exact ⟨⟨h.coherent, fun _ member => member, nofun, nofun, fun t item _ => .inl item⟩, absurd rfl⟩
    · rcases owed with item | none
      · exact owes t item
      · cases none

/-- A dispatch that begins an attempt takes along what still waits. -/
theorem beginAttempt (h : c.Sound) {d : Dispatch} (member : d ∈ c.dispatches)
    (owes : ∀ t ∈ named d.items, d.owes t) (healthy : Bool) :
    Lapses c (c.beginAttempt d healthy).2 := by
  have sub : (d.items.filter fun i => c.correlator.isLive i.token).Sublist d.items :=
    List.filter_sublist
  have stay : ∀ t ∈ named d.items, c.correlator.isLive t = true →
      t ∈ named (d.items.filter fun i => c.correlator.isLive i.token) := by
    intro t item live
    obtain ⟨i, before, rfl⟩ := List.mem_map.1 item
    exact List.mem_map_of_mem (List.mem_filter.2 ⟨before, live⟩)
  simp only [Client.beginAttempt]
  generalize d.items.filter (fun i => c.correlator.isLive i.token) = items at sub stay
  split
  · rename_i empty
    refine h.stop member fun t w found => h.nobody_waits member (fun t item => ?_) found
    refine Bool.eq_false_iff.2 fun live => ?_
    have waits := stay t item live
    rw [List.isEmpty_iff.1 empty] at waits
    cases waits
  · split
    · rename_i reason _
      have lapse := h.lapse (Correlator.failBatch_fails h.coherent d.id (.sessionClosed reason))
      exact h.trans lapse (lapse.sound.stop member fun t w => Correlator.failBatch_gone h.coherent _ _)
    · have connecting : Lapses c { c with lifecycle := c.lifecycle.beginConnect.2 } :=
        h.aside rfl rfl rfl rfl rfl c.lifecycle.beginConnect_quiet
      have sub : (named items).Sublist (named d.items) := sub.map _
      split
      · exact h.trans connecting (connecting.sound.send member rfl sub stay
          fun t item => owes t (sub.subset item))
      · exact h.trans connecting (connecting.sound.goOn member rfl sub stay
          (fun _ _ phase => nomatch phase) fun t owed => owes t (sub.subset owed))

/-- What an ending leaves to do covers every item that still waits. -/
def Covers (c : Client) (d : Dispatch) : AttemptEnding → Prop
  | .settled => ∀ t ∈ named d.items, c.correlator.isLive t = false
  | .fatal _ => True
  | .retry rest _ => rest.Sublist d.items ∧ (∀ t ∈ named rest, d.owes t) ∧
      ∀ t ∈ named d.items, c.correlator.isLive t = true → t ∈ named rest

theorem onTransientFailure (h : c.Sound) {d : Dispatch} (member : d ∈ c.dispatches)
    {rest : List Item} {e : Error} (covers : Covers c d (.retry rest e)) :
    Lapses c (c.onTransientFailure d rest e) := by
  obtain ⟨sub, owes, stay⟩ := covers
  have reckons := c.lifecycle.onFailure_reckons c.now d.started c.config.failureLimit e.message
  unfold Client.onTransientFailure
  generalize c.lifecycle.onFailure c.now d.started c.config.failureLimit e.message = outcome at reckons
  obtain ⟨outcome, l⟩ := outcome
  cases outcome with
  | closed reason =>
    have closed : l.closedReason = some reason := by
      cases reckons
      simp
    have fails := Correlator.failAll_fails h.coherent (.sessionClosed reason)
    have silent := Correlator.failAll_gone h.coherent (.sessionClosed reason)
    have shut : Lapses c { c with
        lifecycle := l, correlator := (c.correlator.failAll (.sessionClosed reason)).2 } :=
      ⟨⟨h.shut fails.toEnds silent (by rw [closed]; nofun),
        fails.toEnds, rfl, Nat.le_refl _, fun _ => id⟩, fails⟩
    refine h.trans shut (shut.sound.stop member fun t w found => ?_)
    rw [show _ = none from silent t] at found
    cases found
  | alreadyClosed =>
    cases reckons
    have lapse := h.lapse (Correlator.failBatch_fails h.coherent d.id
      (.sessionClosed (c.lifecycle.closedReason.getD "")))
    exact h.trans lapse (lapse.sound.stop member fun t w => Correlator.failBatch_gone h.coherent _ _)
  | degraded =>
    have degraded : Lapses c { c with lifecycle := l } := h.aside rfl rfl rfl rfl rfl reckons.quiet
    simp only
    split
    · have lapse := degraded.sound.lapse (Correlator.failBatch_fails degraded.sound.coherent d.id
        (.unavailable d.attempts e))
      exact h.trans degraded (degraded.sound.trans lapse
        (lapse.sound.stop member fun t w => Correlator.failBatch_gone h.coherent _ _))
    · split
      · exact h.trans degraded (degraded.sound.giveUp member)
      · have counted : Lapses c { c with lifecycle := l, stats := c.stats.recordRetry } :=
          h.aside rfl rfl rfl rfl rfl reckons.quiet
        exact h.trans counted (counted.sound.goOn member rfl (sub.map _) stay
          (fun _ _ phase => nomatch phase) owes)

/-- **No ending of an attempt forgets a check.** -/
theorem onEnding (h : c.Sound) {d : Dispatch} (member : d ∈ c.dispatches) {ending : AttemptEnding}
    (covers : Covers c d ending) : Lapses c (c.onEnding d ending) := by
  cases ending with
  | settled =>
    have succeeded : Lapses c { c with lifecycle := c.lifecycle.onSuccess } :=
      h.aside rfl rfl rfl rfl rfl c.lifecycle.onSuccess_quiet
    exact h.trans succeeded (succeeded.sound.stop member fun t w found =>
      h.nobody_waits member covers found)
  | fatal e =>
    obtain ⟨closed, silent⟩ := h.closeWith e.message e
    refine h.trans closed (closed.sound.stop (d := d) ?_ fun t w found => ?_)
    · have same : (c.closeWith e.message e).dispatches = c.dispatches := by
        unfold Client.closeWith
        split <;> rfl
      rw [same]
      exact member
    · rw [silent t] at found
      cases found
  | retry rest e => exact h.onTransientFailure member covers

/-! ## What happens to a dispatch -/

theorem mem_of_dispatch? {b : BatchId} {d : Dispatch} (found : c.dispatch? b = some d) :
    d ∈ c.dispatches ∧ d.id = b :=
  ⟨List.mem_of_find?_eq_some found, by simpa using List.find?_some found⟩

theorem onDue (h : c.Sound) (b : BatchId) (healthy : Bool) : Lapses c (c.onDue b healthy).2 := by
  unfold Client.onDue
  split
  · rename_i d found
    have member := (mem_of_dispatch? found).1
    split
    · rename_i phase
      exact h.beginAttempt member (fun t item => by rw [Dispatch.owes, phase]; exact item) healthy
    · rename_i wake phase
      split
      · exact h.beginAttempt member (fun t item => by rw [Dispatch.owes, phase]; exact item) healthy
      · exact h.refl
    · exact h.refl
  · exact h.refl

theorem onConnect (h : c.Sound) (b : BatchId) (result : Except Error Unit) :
    Lapses c (c.onConnect b result).2 := by
  unfold Client.onConnect
  split
  · rename_i d found
    have member := (mem_of_dispatch? found).1
    split
    · rename_i phase
      have owes : ∀ t ∈ named d.items, d.owes t := fun t item => by
        rw [Dispatch.owes, phase]
        exact item
      split
      · have connected : Lapses c { c with lifecycle := c.lifecycle.onConnected } :=
          h.aside rfl rfl rfl rfl rfl c.lifecycle.onConnected_quiet
        exact h.trans connected (connected.sound.send member rfl (.refl _) (fun _ item _ => item) owes)
      · rename_i e
        refine h.onEnding member ?_
        split
        · trivial
        · exact ⟨.refl _, owes, fun _ item _ => item⟩
    · exact h.refl
  · exact h.refl

/-- The accounts of an attempt are put back, with the dispatch as it goes on from there. -/
theorem goOnReading (h : c.Sound) {d : Dispatch} (member : d ∈ c.dispatches) {deadline : Instant}
    {a : Attempt} (phase : d.phase = .reading deadline a) {x : Exchange}
    (ends : Ends c.correlator x.correlator) (balanced : Balanced d.items x)
    (proceeds : Exchange.Proceeds ⟨a, c.correlator, c.stats⟩ x) :
    Carries c ((c.settle x).keep { d with phase := .reading deadline x.attempt }) where
  sound := by
    have settled : (c.settle x).Sound := (h.ends ends).congr rfl rfl rfl rfl rfl (.refl _)
    refine settled.keep member rfl (.refl _) (fun _ item _ => item) fun deadline' a' phase' s => ?_
    cases phase'
    exact ⟨⟨balanced.coherent, balanced.unanswered, balanced.retry, balanced.apart, balanced.due⟩,
      balanced.reason⟩
  ends := ends
  tokens := rfl
  batches := Nat.le_refl _
  owes t owed := by
    refine owes_keep (c := c.settle x) member (fun t owed => ?_) owed
    rw [Dispatch.owes, phase]
    exact owed.elim (fun unanswered => .inl (proceeds.unanswered t unanswered))
      fun retry => (proceeds.retry t retry).symm

/-- **Whatever reply is read, custody is kept.** -/
theorem onReply (h : c.Sound) (b : BatchId) (reply : Reply) : Carries c (c.onReply b reply) := by
  unfold Client.onReply
  split
  · rename_i d found
    have member := (mem_of_dispatch? found).1
    split
    · rename_i deadline a phase
      have balanced := h.accounts d member deadline a phase c.stats
      split
      · rename_i x read
        obtain ⟨next, proceeds⟩ := balanced.read read
        refine h.goOnReading member phase ?_ next proceeds
        cases reply with
        | result t r =>
          cases read
          exact Exchange.readResult_ends balanced.coherent t r
        | failed tokens e => exact (balanced.read_fails read nofun).toEnds
        | unmatched detail => exact (balanced.read_fails read nofun).toEnds
      · rename_i e _
        exact (h.onEnding member (show Covers c d (.fatal e) from trivial)).toCarries
    · exact h.refl.toCarries
  · exact h.refl.toCarries

/-- A reply that is no result answers nobody. -/
theorem onReply_lapses (h : c.Sound) (b : BatchId) {reply : Reply}
    (other : ∀ t r, reply ≠ .result t r) : Lapses c (c.onReply b reply) := by
  refine ⟨h.onReply b reply, ?_⟩
  unfold Client.onReply
  split
  · rename_i d found
    have member := (mem_of_dispatch? found).1
    split
    · rename_i deadline a phase
      split
      · rename_i x read
        exact (h.accounts d member deadline a phase c.stats).read_fails read other
      · rename_i e _
        exact (h.onEnding member (show Covers c d (.fatal e) from trivial)).fails
    · exact .refl h.coherent
  · exact .refl h.coherent

/-- The accounts of an attempt are closed, and its ending is acted on. -/
theorem conclude (h : c.Sound) {d : Dispatch} (member : d ∈ c.dispatches) {deadline : Instant}
    {a : Attempt} (phase : d.phase = .reading deadline a) {x : Exchange}
    (fails : Fails c.correlator x.correlator) (closed : Closed d.items x)
    (retry : ∀ t ∈ x.attempt.retry, t ∈ a.unanswered ∨ t ∈ a.retry) :
    Lapses c ((c.settle x).onEnding d (x.ending d.items)) := by
  have lapse := h.lapse fails
  have settled : Lapses c (c.settle x) := h.trans lapse (lapse.sound.aside rfl rfl rfl rfl rfl (.refl _))
  refine h.trans settled (settled.sound.onEnding member ?_)
  cases ending : x.ending d.items with
  | settled => exact closed.of_settled ending
  | fatal e => trivial
  | retry rest e =>
    obtain ⟨rfl, stay⟩ := closed.of_retry ending
    refine ⟨List.filter_sublist, ?_, ?_⟩
    · intro t item
      obtain ⟨i, kept, rfl⟩ := List.mem_map.1 item
      have again : i.token ∈ x.attempt.retry := by simpa using (List.mem_filter.1 kept).2
      rw [Dispatch.owes, phase]
      exact retry i.token again
    · intro t item live
      obtain ⟨i, before, rfl⟩ := List.mem_map.1 item
      exact List.mem_map_of_mem (stay i before live)

theorem onStreamEnd (h : c.Sound) (b : BatchId) : Lapses c (c.onStreamEnd b) := by
  unfold Client.onStreamEnd
  split
  · rename_i d found
    have member := (mem_of_dispatch? found).1
    split
    · rename_i deadline a phase
      have balanced := h.accounts d member deadline a phase c.stats
      refine h.conclude member phase (Exchange.endOfStream_fails balanced.coherent) balanced.endOfStream
        fun t again => .inr ?_
      rw [Exchange.retry_endOfStream balanced.coherent] at again
      exact again
    · exact h.refl
  · exact h.refl

theorem onDeadline (h : c.Sound) (b : BatchId) : Lapses c (c.onDeadline b) := by
  unfold Client.onDeadline
  split
  · rename_i d found
    have member := (mem_of_dispatch? found).1
    split
    · rename_i deadline a phase
      split
      · have balanced := h.accounts d member deadline a phase c.stats
        exact h.conclude member phase (.refl h.coherent) (balanced.passDeadline c.config.requestTimeout)
          fun t again => (List.mem_append.1 again).symm
      · exact h.refl
    · exact h.refl
  · exact h.refl

/-! ## Taking a request in -/

/-- A check has come to wait under `t`, as `w`, and nothing else has changed. -/
structure Enters (c : Client) (t : Token) (w : Waiter) (c' : Client) : Prop where
  sound : c'.Sound
  registers : Correlator.Registers c.correlator t w c'.correlator
  tokens : c'.ids.tokens = c.ids.tokens
  batches : c.ids.batches ≤ c'.ids.batches
  owes : ∀ t', c'.owes t' → t' = t ∨ c.owes t'

theorem enqueue (h : c.Sound) {t : Token} (free : c.correlator.waiters.get? t = none)
    (unheld : ∀ b, (t, b) ∉ c.holdings) (issued : t.number ≤ c.ids.tokens)
    (running : c.lifecycle.state ≠ .closed) (request : Request) (prefill : Prefill) :
    ∃ b, Enters c t ⟨b, (c.enqueue t request prefill).1, prefill⟩ (c.enqueue t request prefill).2.2 := by
  obtain ⟨before, c₁, after, c₂, room, entry, result⟩ := c.enqueue_cases t request prefill
  -- What leaves before and after touches neither the correlator nor the tokens.
  obtain ⟨lapses, correlator, unheld₁, running₁⟩ : Lapses c c₁ ∧ c₁.correlator = c.correlator ∧
      (∀ b, (t, b) ∉ c₁.holdings) ∧ c₁.lifecycle.state ≠ .closed := by
    cases room with
    | stays => exact ⟨h.refl, rfl, unheld, running⟩
    | leaves =>
      exact ⟨h.leave, rfl, fun b held => unheld b ((mem_holdings_departure c t b).1 held), running⟩
  have admitted : (c₁.joined t request prefill).Sound := lapses.sound.enrol ⟨t, request⟩ prefill
    request.estimatedSize (by rw [correlator]; exact free) unheld₁
    (by rw [lapses.tokens]; exact issued) running₁
  have registers : Correlator.Registers c.correlator t
      ⟨c₁.openBatch.id, (c₁.correlator.register t c₁.openBatch.id prefill).1, prefill⟩
      (c₁.joined t request prefill).correlator := by
    rw [joined, correlator]
    exact Correlator.register_registers h.coherent free c₁.openBatch.id prefill
  have owes : ∀ t', (c₁.joined t request prefill).owes t' → t' = t ∨ c.owes t' := by
    rintro t' (filling | under)
    · simp only [joined, OpenBatch.add, List.map_append, List.mem_append, List.map_cons, List.map_nil,
        List.mem_singleton] at filling
      exact filling.symm.imp_right fun before => lapses.owes t' (.inl before)
    · exact .inr (lapses.owes t' (.inr under))
  refine ⟨c₁.openBatch.id, ?_⟩
  rw [result]
  cases entry with
  | fills =>
    exact ⟨admitted.departure, registers, lapses.tokens, Nat.le_succ_of_le lapses.batches,
      fun t' owed => owes t' (admitted.leave.owes t' owed)⟩
  | opens =>
    exact ⟨admitted.congr rfl rfl rfl rfl rfl (.refl _), registers, lapses.tokens, lapses.batches, owes⟩
  | joins => exact ⟨admitted, registers, lapses.tokens, lapses.batches, owes⟩

/-- The token that comes next has never been seen. -/
theorem unseen (h : c.Sound) :
    c.correlator.waiters.get? c.ids.nextToken.1 = none ∧ ∀ b, (c.ids.nextToken.1, b) ∉ c.holdings := by
  refine ⟨?_, fun b held => absurd (h.issued _ b held) (Nat.not_succ_le_self _)⟩
  cases found : c.correlator.waiters.get? c.ids.nextToken.1 with
  | none => rfl
  | some w => exact absurd (h.known _ w found) (Nat.not_succ_le_self _)

theorem issue (h : c.Sound) : Sound { c with ids := c.ids.nextToken.2 } :=
  { h with
    issued := fun t b held => Nat.le_succ_of_le (h.issued t b held)
    known := fun t w found => Nat.le_succ_of_le (h.known t w found) }

theorem with_cache (h : c.Sound) (cache : Option (DecisionStore Fingerprint)) :
    Sound { c with correlator.cache := cache } :=
  h.ends ⟨h.coherent.with_cache cache, fun _ _ found => found⟩

end Sound

/-- What taking in a request does to the checks before it, and to what is remembered. -/
structure Submits (c : Client) (request : Request) (t : Token) (c' : Client) : Prop where
  sound : c'.Sound
  tokens : c'.ids.tokens = c.ids.tokens + 1
  batches : c.ids.batches ≤ c'.ids.batches
  owes : ∀ t', c'.owes t' → t' = t ∨ c.owes t'
  others : ∀ t', t' ≠ t → c'.correlator.waiters.get? t' = c.correlator.waiters.get? t'
  fresh : ∀ w, c'.correlator.waiters.get? t = some w → w.slot = c.correlator.mail.length
  kept : ∀ s, s < c.correlator.mail.length → c'.correlator.readMail s = c.correlator.readMail s
  slots : c.correlator.mail.length ≤ c'.correlator.mail.length
  cache : c'.correlator.cache = c.correlator.cache ∨
    ∃ store, c.correlator.cache = some store ∧ c'.correlator.cache = some (consult store request).2

/-- Where a request stands once it is taken in. -/
inductive Standing (c : Client) (request : Request) (t : Token) (call : Call) (c' : Client) : Prop
  /-- The session is closed. -/
  | refused (reason : String) (closed : c.lifecycle.closedReason = some reason)
      (state : call.state = .ready (.error (.sessionClosed reason)))
      (correlator : c'.correlator = c.correlator)
  /-- The cache decides every action. -/
  | decided (running : c.lifecycle.closedReason = none)
      (store : DecisionStore Fingerprint) (cache : c.correlator.cache = some store)
      (all : (c.prefill request).asked = [])
      (state : call.state = .ready (.ok { decisions := (c.prefill request).decisions }))
      (waiters : c'.correlator.waiters = c.correlator.waiters)
  /-- The check waits. -/
  | waits (running : c.lifecycle.closedReason = none) (b : BatchId)
      (state : call.state = .waiting c.correlator.mail.length)
      (waiter : c'.correlator.waiters.get? t = some ⟨b, c.correlator.mail.length, c.prefill request⟩)

/-- **Taking in a request** gives it a token of its own, leaves every other check alone,
and refuses it, decides it or has it wait. -/
theorem Sound.submit {c : Client} (h : c.Sound) (request : Request) :
    (c.submit request).1.token = c.ids.nextToken.1 ∧
      Submits c request c.ids.nextToken.1 (c.submit request).2.2 ∧
      Standing c request c.ids.nextToken.1 (c.submit request).1 (c.submit request).2.2 := by
  obtain ⟨free, unheld⟩ := h.unseen
  have absent : ∀ w, c.correlator.waiters.get? c.ids.nextToken.1 = some w →
      w.slot = c.correlator.mail.length := fun w found => by
    rw [free] at found
    cases found
  have consulted : (c.consulted request).Sound := h.issue.with_cache _
  have cached : (c.consulted request).correlator.cache = c.correlator.cache ∨
      ∃ store, c.correlator.cache = some store ∧
        (c.consulted request).correlator.cache = some (consult store request).2 := by
    cases cache : c.correlator.cache with
    | none => exact .inl (by rw [Client.consulted, cache, Option.map_none])
    | some store => exact .inr ⟨store, rfl, by rw [Client.consulted, cache, Option.map_some]⟩
  cases c.submission request with
  | refused reason closed result =>
    rw [result]
    exact ⟨rfl, ⟨h.issue, rfl, Nat.le_refl _, fun _ => .inr, fun _ _ => rfl, absent, fun _ _ => rfl,
      Nat.le_refl _, .inl rfl⟩, .refused reason closed rfl rfl⟩
  | decided running store cache all result =>
    rw [result]
    exact ⟨rfl, ⟨consulted.congr rfl rfl rfl rfl rfl (.refl _), rfl, Nat.le_refl _, fun _ => .inr,
      fun _ _ => rfl, absent, fun _ _ => rfl, Nat.le_refl _, cached⟩,
      .decided running store cache all rfl rfl⟩
  | enters running result =>
    rw [result]
    have open_ : c.lifecycle.state ≠ .closed := fun closed => (h.closed closed).1 running
    obtain ⟨b, enters⟩ : ∃ b, Enters (c.consulted request) c.ids.nextToken.1
        ⟨b, (c.entered request).1, c.prefill request⟩ (c.entered request).2.2 :=
      consulted.enqueue free unheld (Nat.le_refl _) open_ _ _
    have registers := enters.registers
    have slot : (c.entered request).1 = c.correlator.mail.length := registers.fresh
    have waiter := registers.waiting c.ids.nextToken.1
    rw [if_pos rfl, slot] at waiter
    refine ⟨rfl, ⟨enters.sound, enters.tokens, enters.batches, enters.owes, fun t' other => ?_,
      fun w found => ?_, registers.kept, ?_, ?_⟩, .waits running b (by rw [← slot]) waiter⟩
    · exact (registers.waiting t').trans (if_neg other)
    · rw [← Option.some.inj (waiter.symm.trans found)]
    · exact registers.slots ▸ Nat.le_succ _
    · rw [registers.cache]
      exact cached

end Client

end PolicyClient
