/-
# PolicyClient.Proofs.Client.Closing -- how a client closes its session

A function of the client leaves a session that is not closed as it is, but for the caller's
`Client.close` and for the ending of an attempt (`Client.Leaves`).  What closes a session
fails every check that waits with it, in the same step (`Client.Shuts`).

A session that is closed stays as it is, nothing waits, and every request is refused for
the one reason (`Client.ClosedFor`).
-/
import PolicyClient.Proofs.Client.Custody
import PolicyClient.Proofs.Client.Frame

namespace PolicyClient

set_option autoImplicit false

/-- The errors that an ending closes a session with, each with the reason that is given. -/
def AttemptEnding.Closes : AttemptEnding → Error → String → Prop
  | .settled, _, _ => False
  | .fatal error, e, reason => e = error ∧ reason = error.message
  | .retry _ last, e, reason => ∃ failures, reason = Lifecycle.limitReason failures last.message ∧
      e = .sessionClosed reason

namespace Client

/-- The session is closed, and every check that waits in `k` fails with `e`. -/
structure Shuts (c : Client) (k : Correlator) (e : Error) (reason : String) (c' : Client) : Prop where
  running : c.lifecycle.state ≠ .closed
  state : c'.lifecycle.state = .closed
  reason : c'.lifecycle.closedReason = some reason
  correlator : c'.correlator = (k.failAll e).2

/-- The session is left as it is, or closed in one of some ways. -/
inductive Leaves (c : Client) (k : Correlator) (closes : Error → String → Prop) (c' : Client) : Prop
  | quiet (quiet : c.lifecycle.Quiet c'.lifecycle)
  | shuts (e : Error) (reason : String) (way : closes e reason) (shuts : Shuts c k e reason c')

variable {c : Client}

/-! ## What does not touch the session -/

@[simp] theorem flush_correlator (c : Client) : c.flush.2.correlator = c.correlator := by
  unfold flush
  split <;> rfl

@[simp] theorem send_lifecycle (c : Client) (d : Dispatch) : (c.send d).2.lifecycle = c.lifecycle := by
  simp only [send]
  split <;> rfl

theorem beginAttempt_quiet (c : Client) (d : Dispatch) (healthy : Bool) :
    c.lifecycle.Quiet (c.beginAttempt d healthy).2.lifecycle := by
  simp only [beginAttempt]
  split
  · exact .refl _
  · split
    · exact .refl _
    · split
      · rw [send_lifecycle]
        exact c.lifecycle.beginConnect_quiet
      · exact c.lifecycle.beginConnect_quiet

theorem onDue_quiet (c : Client) (b : BatchId) (healthy : Bool) :
    c.lifecycle.Quiet (c.onDue b healthy).2.lifecycle := by
  unfold onDue
  split
  · split
    · exact c.beginAttempt_quiet _ healthy
    · split
      · exact c.beginAttempt_quiet _ healthy
      · exact .refl _
    · exact .refl _
  · exact .refl _

theorem onLink_quiet (c : Client) (up : Bool) : c.lifecycle.Quiet (c.onLink up).lifecycle := by
  cases up with
  | true => exact c.lifecycle.onLinkUp_quiet
  | false => exact c.lifecycle.onLinkDown_quiet

/-! ## What closes the session -/

theorem closeWith_leaves (c : Client) (reason : String) (e : Error) :
    Leaves c c.correlator (fun e' reason' => e' = e ∧ reason' = reason) (c.closeWith reason e) := by
  by_cases closed : c.lifecycle.state = .closed
  · rw [closeWith, Lifecycle.close_of_closed closed]
    exact .quiet (.refl _)
  · rw [closeWith, Lifecycle.close_of_open closed]
    exact .shuts e reason ⟨rfl, rfl⟩ ⟨closed, by simp, by simp, rfl⟩

theorem close_leaves (c : Client) :
    Leaves c c.correlator
      (fun e reason => e = .sessionClosed "closed by caller" ∧ reason = "closed by caller") c.close.2 := by
  unfold close
  cases c.closeWith_leaves "closed by caller" (.sessionClosed "closed by caller") with
  | quiet quiet =>
    apply Leaves.quiet
    rw [(flush_fills _).lifecycle]
    exact quiet
  | shuts e reason way shuts =>
    refine .shuts e reason way ⟨shuts.running, ?_, ?_, ?_⟩
    · rw [(flush_fills _).lifecycle]
      exact shuts.state
    · rw [(flush_fills _).lifecycle]
      exact shuts.reason
    · rw [flush_correlator]
      exact shuts.correlator

theorem onTransientFailure_leaves (c : Client) (d : Dispatch) (rest : List Item) (e : Error) :
    Leaves c c.correlator (AttemptEnding.retry rest e).Closes (c.onTransientFailure d rest e) := by
  have reckons := c.lifecycle.onFailure_reckons c.now d.started c.config.failureLimit e.message
  unfold onTransientFailure
  generalize c.lifecycle.onFailure c.now d.started c.config.failureLimit e.message = outcome at reckons
  obtain ⟨outcome, lifecycle⟩ := outcome
  cases outcome with
  | degraded =>
    have quiet := reckons.quiet
    dsimp only
    split
    · exact .quiet quiet
    · split <;> exact .quiet quiet
  | alreadyClosed =>
    cases reckons
    exact .quiet (.refl _)
  | closed reason =>
    cases reckons with
    | closing running =>
      exact .shuts _ _ ⟨c.lifecycle.failures + 1, rfl, rfl⟩
        ⟨running, Lifecycle.moveTo_state .., Lifecycle.moveTo_closedReason .., rfl⟩

theorem onEnding_leaves (c : Client) (d : Dispatch) (ending : AttemptEnding) :
    Leaves c c.correlator ending.Closes (c.onEnding d ending) := by
  cases ending with
  | settled => exact .quiet c.lifecycle.onSuccess_quiet
  | retry rest e => exact c.onTransientFailure_leaves d rest e
  | fatal e =>
    cases c.closeWith_leaves e.message e with
    | quiet quiet => exact .quiet quiet
    | shuts e' reason way shuts =>
      exact .shuts e' reason way ⟨shuts.running, shuts.state, shuts.reason, shuts.correlator⟩

/-- What a failed connection does to the attempt. -/
def connectEnding (d : Dispatch) (e : Error) : AttemptEnding :=
  if e.isFatal then .fatal e else .retry d.items e

/-- The ways in which the result of a connection closes a session. -/
def ConnectCloses : Except Error Unit → Error → String → Prop
  | .ok (), _, _ => False
  | .error e, e', reason => ∃ d, (connectEnding d e).Closes e' reason

theorem onConnect_leaves (c : Client) (b : BatchId) (result : Except Error Unit) :
    Leaves c c.correlator (ConnectCloses result) (c.onConnect b result).2 := by
  unfold onConnect
  split
  · rename_i d _
    split
    · split
      · apply Leaves.quiet
        rw [send_lifecycle]
        exact c.lifecycle.onConnected_quiet
      · rename_i e
        cases c.onEnding_leaves d (connectEnding d e) with
        | quiet quiet => exact .quiet quiet
        | shuts e' reason way shuts => exact .shuts e' reason ⟨d, way⟩ shuts
    · exact .quiet (.refl _)
  · exact .quiet (.refl _)

/-- Only a fatal failure breaks reading off. -/
theorem read_eq_error {x : Exchange} {reply : Reply} {e : Error} (broken : x.read reply = .error e) :
    e.isFatal = true ∧ ∃ tokens, reply = .failed tokens e := by
  cases reply with
  | result t r => cases broken
  | unmatched detail => cases broken
  | failed tokens e' =>
    simp only [Exchange.read] at broken
    split at broken
    · cases broken
      exact ⟨‹_›, tokens, rfl⟩
    · cases broken

theorem onReply_leaves (c : Client) (b : BatchId) (reply : Reply) :
    Leaves c c.correlator
      (fun e reason => e.isFatal = true ∧ (∃ tokens, reply = .failed tokens e) ∧ reason = e.message)
      (c.onReply b reply) := by
  unfold onReply
  split
  · rename_i d _
    split
    · split
      · exact .quiet (.refl _)
      · rename_i e broken
        obtain ⟨fatal, named⟩ := read_eq_error broken
        cases c.onEnding_leaves d (.fatal e) with
        | quiet quiet => exact .quiet quiet
        | shuts e' reason way shuts =>
          obtain ⟨rfl, rfl⟩ := way
          exact .shuts e' _ ⟨fatal, named, rfl⟩ shuts
    · exact .quiet (.refl _)
  · exact .quiet (.refl _)

/-- The session is closed because the limit of failures is reached. -/
def AtLimit (e : Error) (reason : String) : Prop :=
  ∃ failures last, reason = Lifecycle.limitReason failures last ∧ e = .sessionClosed reason

/-- An attempt that has come to its end closes the session by the limit only. -/
theorem onEnding_leaves_at_limit (c : Client) (d : Dispatch) (x : Exchange) :
    Leaves c x.correlator AtLimit ((c.settle x).onEnding d (x.ending d.items)) := by
  have way : ∀ e reason, (x.ending d.items).Closes e reason → AtLimit e reason := by
    intro e reason closes
    unfold Exchange.ending at closes
    split at closes
    · split at closes
      · exact closes.elim
      · obtain ⟨failures, rfl, rfl⟩ := closes
        exact ⟨failures, _, rfl, rfl⟩
    · exact closes.elim
  cases (c.settle x).onEnding_leaves d (x.ending d.items) with
  | quiet quiet => exact .quiet quiet
  | shuts e reason closes shuts =>
    exact .shuts e reason (way e reason closes) ⟨shuts.running, shuts.state, shuts.reason, shuts.correlator⟩

theorem onDeadline_leaves (c : Client) (b : BatchId) :
    Leaves c c.correlator AtLimit (c.onDeadline b) := by
  unfold onDeadline
  split
  · rename_i d _
    split
    · rename_i a _
      split
      · exact c.onEnding_leaves_at_limit d
          (Exchange.passDeadline ⟨a, c.correlator, c.stats⟩ c.config.requestTimeout)
      · exact .quiet (.refl _)
    · exact .quiet (.refl _)
  · exact .quiet (.refl _)

/-- The calls that wait once those have failed that the end of the stream of `b` leaves
without an answer. -/
def streamEnded (c : Client) (b : BatchId) : Correlator :=
  match c.dispatch? b with
  | some d =>
    match d.phase with
    | .reading _ a => (Exchange.endOfStream ⟨a, c.correlator, c.stats⟩).correlator
    | _ => c.correlator
  | none => c.correlator

theorem onStreamEnd_leaves (c : Client) (b : BatchId) :
    Leaves c (c.streamEnded b) AtLimit (c.onStreamEnd b) := by
  unfold onStreamEnd streamEnded
  cases c.dispatch? b with
  | none => exact .quiet (.refl _)
  | some d =>
    cases phase : d.phase with
    | reading deadline a =>
      simp only [phase]
      exact c.onEnding_leaves_at_limit d (Exchange.endOfStream ⟨a, c.correlator, c.stats⟩)
    | _ =>
      simp only [phase]
      exact .quiet (.refl _)

/-! ## A closed session -/

/-- The session is closed for `reason`: nothing waits, and a request is refused at once,
which changes nothing but the tokens that are issued. -/
structure ClosedFor (c : Client) (reason : String) : Prop where
  state : c.state = .closed
  given : c.lifecycle.closedReason = some reason
  silent : ∀ t, c.correlator.isLive t = false
  refuses : ∀ request, c.submit request =
    (⟨c.ids.nextToken.1, .ready (.error (.sessionClosed reason))⟩, [], { c with ids := c.ids.nextToken.2 })

theorem Sound.closedFor (h : c.Sound) {reason : String} (closed : c.lifecycle.state = .closed)
    (given : c.lifecycle.closedReason = some reason) : c.ClosedFor reason where
  state := closed
  given := given
  silent t := (c.correlator.isLive_eq_false_iff t).2 ((h.closed closed).2 t)
  refuses request := by simp [Client.submit, given]

end Client

end PolicyClient
