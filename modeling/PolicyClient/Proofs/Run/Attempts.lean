/-
# PolicyClient.Proofs.Run.Attempts -- one attempt accounts for every request

A batch whose replies begin to be read is read on, reply by reply, until the stream ends, the
deadline passes, or a fatal error is read.  Whatever the replies are, the client then stands
where `Exchange.conduct` leads and has acted on the end of the attempt: the keeping of the
dispatch between two replies leaves no trace (`Client.onEnding_keep`).

So every run that reads an attempt to its end makes exactly the calls of the correlator that
`ledger` lists, and `Run.attempt_accounts` says what these are.
-/
import PolicyClient.Proofs.Attempt.Conduct
import PolicyClient.Proofs.Client.Custody
import PolicyClient.Proofs.Run.History

namespace PolicyClient

set_option autoImplicit false

open Exchange (named opening conduct)

namespace Client

variable {c : Client}

/-! ## Keeping a dispatch leaves no trace -/

theorem keep_keep (c : Client) (d d' : Dispatch) (same : d'.id = d.id) :
    (c.keep d').keep d = c.keep d := by
  simp only [keep, List.map_map]
  congr 1
  refine List.map_congr_left fun e _ => ?_
  by_cases own : e.id = d.id <;> simp [own, same]

theorem finish_keep (c : Client) (d' : Dispatch) : (c.keep d').finish d'.id = c.finish d'.id := by
  simp only [keep, finish]
  congr 1
  rw [List.filter_map]
  have left : (c.dispatches.filter ((fun d => decide (d.id ≠ d'.id)) ∘
      fun e => if e.id = d'.id then d' else e)) = c.dispatches.filter fun d => d.id ≠ d'.id :=
    List.filter_congr fun e _ => by by_cases own : e.id = d'.id <;> simp [own]
  rw [left]
  refine (List.map_congr_left fun e member => ?_).trans (List.map_id _)
  exact if_neg (by simpa using (List.mem_filter.1 member).2)

theorem breakOff_keep (c : Client) (d' : Dispatch) : (c.keep d').breakOff d'.id = c.breakOff d'.id := by
  rw [breakOff, finish_keep]
  rfl

theorem dispatch?_keep (d d' : Dispatch) (found : c.dispatch? d.id = some d) (same : d'.id = d.id) :
    (c.keep d').dispatch? d.id = some d' := by
  have ids : ((fun e : Dispatch => decide (e.id = d.id)) ∘ fun e => if e.id = d'.id then d' else e) =
      fun e => decide (e.id = d.id) := by
    funext e
    by_cases own : e.id = d.id <;> simp [own, same]
  have finds : c.dispatches.find? (fun e => decide (e.id = d.id)) = some d := found
  rw [dispatch?, keep, List.find?_map, ids, finds]
  simp [same]

theorem dispatch?_finish (c : Client) (b : BatchId) : (c.finish b).dispatch? b = none := by
  simp [dispatch?, finish, List.find?_eq_none]

theorem closeWith_keep (c : Client) (d : Dispatch) (reason : String) (e : Error) :
    (c.keep d).closeWith reason e = (c.closeWith reason e).keep d := by
  have same : (c.keep d).lifecycle = c.lifecycle := rfl
  rw [closeWith, closeWith, same]
  rcases c.lifecycle.close reason with ⟨_ | _, l⟩ <;> rfl

theorem onTransientFailure_keep (c : Client) (d : Dispatch) (phase : Phase) (rest : List Item) (e : Error) :
    (c.keep { d with phase }).onTransientFailure { d with phase } rest e = c.onTransientFailure d rest e := by
  have outcome : (c.keep { d with phase }).lifecycle.onFailure (c.keep { d with phase }).now d.started
      (c.keep { d with phase }).config.failureLimit e.message =
    c.lifecycle.onFailure c.now d.started c.config.failureLimit e.message := rfl
  have budget : (c.keep { d with phase }).config.retryBudget = c.config.retryBudget := rfl
  have delay : (c.keep { d with phase }).config.backoff.wait? (d.attempts - 1) (c.keep { d with phase }).chance =
    c.config.backoff.wait? (d.attempts - 1) c.chance := rfl
  simp only [onTransientFailure, outcome, budget, delay]
  split
  · exact finish_keep { c with lifecycle := _, correlator := _ } { d with phase }
  · exact finish_keep { c with lifecycle := _, correlator := _ } { d with phase }
  · rename_i l _
    split
    · exact finish_keep { c with lifecycle := l, correlator := _ } { d with phase }
    · split
      · exact breakOff_keep { c with lifecycle := l } { d with phase }
      · rename_i wait _
        exact keep_keep { c with lifecycle := l, stats := c.stats.recordRetry }
          { d with items := rest, phase := .backingOff (c.now + wait) } { d with phase } rfl

/-- Where a dispatch stood while replies were read does not matter when the attempt ends. -/
theorem onEnding_keep (c : Client) (d : Dispatch) (phase : Phase) (ending : AttemptEnding) :
    (c.keep { d with phase }).onEnding { d with phase } ending = c.onEnding d ending := by
  cases ending with
  | settled => exact finish_keep { c with lifecycle := c.lifecycle.onSuccess } { d with phase }
  | fatal e =>
    simp only [onEnding, closeWith_keep]
    exact finish_keep (c.closeWith e.message e) { d with phase }
  | retry rest e => exact onTransientFailure_keep c d phase rest e

/-! ## Reading on -/

/-- The client `c'` is where `c` stands once its dispatch `d` has read on to `x`: it ends the
attempt of `d` as `c` would at that time. -/
structure HasRead (c : Client) (d : Dispatch) (deadline : Instant) (x : Exchange) (c' : Client) : Prop where
  found : c'.dispatch? d.id = some { d with phase := .reading deadline x.attempt }
  config : c'.config = c.config
  correlator : c'.correlator = x.correlator
  stats : c'.stats = x.stats
  ends : ∀ now x' ending,
    (settle { c' with now } x').onEnding { d with phase := .reading deadline x.attempt } ending =
      (settle { c with now } x').onEnding d ending

namespace HasRead

variable {d : Dispatch} {deadline : Instant} {x : Exchange} {c' : Client}

theorem nothing {a : Attempt} (found : c.dispatch? d.id = some d) (phase : d.phase = .reading deadline a) :
    HasRead c d deadline ⟨a, c.correlator, c.stats⟩ c := by
  have same : { d with phase := .reading deadline a } = d := by rw [← phase]
  exact ⟨by rw [same]; exact found, rfl, rfl, rfl, fun _ _ _ => by rw [same]⟩

/-- Time passes. -/
theorem elapse (h : HasRead c d deadline x c') (now : Instant) :
    HasRead c d deadline x { c' with now } :=
  ⟨h.found, h.config, h.correlator, h.stats, h.ends⟩

theorem exchange (h : HasRead c d deadline x c') : ⟨x.attempt, c'.correlator, c'.stats⟩ = x := by
  rw [h.correlator, h.stats]

/-- One more reply is read. -/
theorem reply (h : HasRead c d deadline x c') {reply : Reply} (lasting : reply.fatal? = none) :
    HasRead c d deadline (x.hear reply) (c'.onReply d.id reply) := by
  have reads : c'.onReply d.id reply = (c'.settle (x.hear reply)).keep
      { d with phase := .reading deadline (x.hear reply).attempt } := by
    simp only [onReply, h.found, h.exchange, x.read_eq lasting]
  rw [reads]
  refine ⟨dispatch?_keep { d with phase := .reading deadline x.attempt } _ h.found rfl, h.config, rfl, rfl,
    fun now x' ending => ?_⟩
  rw [← h.ends]
  exact onEnding_keep (settle { c' with now } x') { d with phase := .reading deadline x.attempt } _ ending

/-- A fatal error ends the attempt on the spot. -/
theorem fatal (h : HasRead c d deadline x c') {reply : Reply} {e : Error} (fatal : reply.fatal? = some e) :
    c'.onReply d.id reply = (settle { c with now := c'.now } x).onEnding d (.fatal e) := by
  have stays : c'.settle x = c' := by rw [settle, ← h.correlator, ← h.stats]
  rw [← h.ends c'.now]
  simp only [onReply, h.found, h.exchange, x.read_fatal fatal]
  rw [stays]

theorem streamEnd (h : HasRead c d deadline x c') :
    c'.onStreamEnd d.id =
      (settle { c with now := c'.now } x.endOfStream).onEnding d (x.endOfStream.ending d.items) := by
  rw [← h.ends c'.now]
  simp only [onStreamEnd, h.found, h.exchange]

theorem overdue (h : HasRead c d deadline x c') (passed : deadline ≤ c'.now) :
    c'.onDeadline d.id = (settle { c with now := c'.now } (x.passDeadline c.config.requestTimeout)).onEnding d
      ((x.passDeadline c.config.requestTimeout).ending d.items) := by
  have ends : c'.onDeadline d.id = (c'.settle (x.passDeadline c.config.requestTimeout)).onEnding
      { d with phase := .reading deadline x.attempt }
      ((x.passDeadline c.config.requestTimeout).ending d.items) := by
    simp only [onDeadline, h.found, h.exchange, h.config, passed, if_true]
  rw [ends]
  exact h.ends c'.now _ _

end HasRead

/-- The client once the attempt of `d` has asked this of the correlator, has found the protocol
violated `n` times, and has ended. -/
def concluded (c : Client) (d : Dispatch) (asked : List Settlement) (n : Nat) (ending : AttemptEnding) :
    Client :=
  { c with
    correlator := asked.foldl Settlement.perform c.correlator
    stats := c.stats.violated n }.onEnding d ending

theorem dispatch?_fatal (c : Client) (d : Dispatch) (e : Error) :
    (c.onEnding d (.fatal e)).dispatch? d.id = none := dispatch?_finish _ d.id

end Client

/-! ## Runs that read one attempt -/

/-- A batch is read on: a reply to it comes, or time passes. -/
def Event.ReadsOn (b : BatchId) : Event → Prop
  | .reply b' _ => b' = b
  | .elapse _ => True
  | _ => False

def Event.reply? : Event → Option Reply
  | .reply _ r => some r
  | _ => none

/-- The replies that come. -/
def repliesIn (events : List Event) : List Reply := events.filterMap Event.reply?

/-- What makes the reading of replies to `b` stop. -/
def Stop.event (b : BatchId) : Stop → Event
  | .streamEnd => .streamEnd b
  | .deadline => .deadline b

namespace Run

variable {r : Run} {d : Dispatch} {deadline : Instant} {events : List Event}

/-- What happens while a batch is read on shows nothing, and changes no handle. -/
theorem after_readsOn {b : BatchId} (reads : ∀ event ∈ events, event.ReadsOn b) (r : Run) :
    r.after events = ([], { r with client := (r.after events).2.client }) := by
  induction events generalizing r with
  | nil => rfl
  | cons event events ih =>
    have first : ∃ c, r.step event = ([], { r with client := c }) := by
      have on := reads event (List.mem_cons_self ..)
      cases event with
      | reply b' reply => exact ⟨_, rfl⟩
      | elapse time => exact ⟨_, rfl⟩
      | _ => exact on.elim
    obtain ⟨c, first⟩ := first
    rw [after_cons, ih (fun event' member => reads event' (List.mem_cons_of_mem _ member)), first]
    rfl

theorem hasRead_after {x : Exchange} {c : Client} (h : c.HasRead d deadline x r.client)
    (reads : ∀ event ∈ events, event.ReadsOn d.id)
    (lasting : ∀ reply ∈ repliesIn events, reply.fatal? = none) :
    c.HasRead d deadline ((repliesIn events).foldl Exchange.hear x) (r.after events).2.client := by
  induction events generalizing r x with
  | nil => exact h
  | cons event events ih =>
    have on := reads event (List.mem_cons_self ..)
    have later := fun event' member => reads event' (List.mem_cons_of_mem event member)
    rw [after_cons]
    cases event with
    | reply b reply =>
      cases on
      exact ih (h.reply (lasting reply (List.mem_cons_self ..))) later fun reply' member =>
        lasting reply' (List.mem_cons_of_mem _ member)
    | elapse time => exact ih (h.elapse _) later lasting
    | _ => exact on.elim

/-- A batch that is not under way has nothing read, and nothing stops. -/
theorem after_absent {b : BatchId} (absent : r.client.dispatch? b = none) (replies : List Reply)
    (stop : Stop) : r.after (replies.map (.reply b) ++ [stop.event b]) = ([], r) := by
  induction replies with
  | nil =>
    rw [List.map_nil, List.nil_append, after_cons, after_nil]
    cases stop with
    | streamEnd => simp only [Stop.event, step, update, Client.onStreamEnd, absent, List.append_nil]
    | deadline => simp only [Stop.event, step, update, Client.onDeadline, absent, List.append_nil]
  | cons reply replies ih =>
    have ignored : r.step (.reply b reply) = ([], r) := by simp only [step, update, Client.onReply, absent]
    rw [List.map_cons, List.cons_append, after_cons, ignored, ih]
    rfl

/-- An attempt that meets no fatal error comes to what `Exchange.conduct` says. -/
theorem after_stop (found : r.client.dispatch? d.id = some d)
    (phase : d.phase = .reading deadline { unanswered := named d.items })
    (reads : ∀ event ∈ events, event.ReadsOn d.id)
    (lasting : ∀ reply ∈ repliesIn events, reply.fatal? = none) (stop : Stop)
    (passed : stop = .deadline → deadline ≤ (r.after events).2.client.now) :
    ∃ ending,
      PutsOff (d.items.filter fun i => (fate stop (words (repliesIn events)) i.token).isDeferred) ending ∧
      r.after (events ++ [stop.event d.id]) = ([], { r with
        client := Client.concluded { r.client with now := (r.after events).2.client.now } d
          (ledger (named d.items) stop (words (repliesIn events)))
          (violations (named d.items) stop (repliesIn events)) ending }) := by
  have read := hasRead_after (.nothing found phase) reads lasting
  have correlator := Exchange.conduct_correlator d.items r.client.correlator r.client.stats
    (repliesIn events) r.client.config.requestTimeout stop
  have stats := Exchange.conduct_stats d.items r.client.correlator r.client.stats
    (repliesIn events) r.client.config.requestTimeout stop
  refine ⟨_, Exchange.conduct_putsOff d.items r.client.correlator r.client.stats (repliesIn events)
    r.client.config.requestTimeout stop, ?_⟩
  rw [Client.concluded, ← correlator, ← stats, after_append, after_cons, after_nil, after_readsOn reads r]
  cases stop with
  | streamEnd =>
    simp only [Stop.event, step, update, read.streamEnd]
    rfl
  | deadline =>
    simp only [Stop.event, step, update, read.overdue (passed rfl)]
    rfl

/-- An attempt that meets a fatal error ends with it. -/
theorem after_fatal (found : r.client.dispatch? d.id = some d)
    (phase : d.phase = .reading deadline { unanswered := named d.items })
    (reads : ∀ event ∈ events, event.ReadsOn d.id)
    (lasting : ∀ reply ∈ repliesIn events, reply.fatal? = none) {reply : Reply} {e : Error}
    (fatal : reply.fatal? = some e) :
    r.after (events ++ [.reply d.id reply]) = ([], { r with
      client := Client.concluded { r.client with now := (r.after events).2.client.now } d
        (settlements (named d.items) (words (repliesIn events)))
        (violationsRead (named d.items) (repliesIn events)) (.fatal e) }) := by
  have read := hasRead_after (.nothing found phase) reads lasting
  rw [after_append, after_cons, after_nil, after_readsOn reads r]
  simp only [step, update, read.fatal fatal, Client.settle, Exchange.foldl_hear, Exchange.told,
    Client.concluded, Stats.violated_violated, violationsRead]
  rfl

/-- Whether the items of `b` have been handed over and nothing has been said about them yet. -/
def opens (r : Run) (b : BatchId) : Bool :=
  match r.client.dispatch? b with
  | none => false
  | some d =>
    match d.phase with
    | .reading _ a => a.unanswered = named d.items && a.retry = [] && a.lastError = none
    | _ => false

theorem exists_of_opens {b : BatchId} (opened : r.opens b = true) :
    ∃ d deadline, d.id = b ∧ r.client.dispatch? d.id = some d ∧
      d.phase = .reading deadline { unanswered := named d.items } := by
  unfold opens at opened
  split at opened
  · cases opened
  · rename_i d found
    obtain ⟨-, rfl⟩ := Client.Sound.mem_of_dispatch? found
    split at opened
    · rename_i deadline a phase
      obtain ⟨unanswered, retry, lastError⟩ :
          a.unanswered = named d.items ∧ a.retry = [] ∧ a.lastError = none := by
        simpa [and_assoc] using opened
      refine ⟨d, deadline, rfl, found, ?_⟩
      rw [phase, ← unanswered, ← retry, ← lastError]
    · cases opened

/-! ## Every attempt -/

/-- **One attempt accounts for every request.**  Whatever replies come and however the reading
stops, if no fatal error is read then the tokens of the items split into those that are settled by
one call of the correlator, and those that are put off, as what is said of them first decides, or
else the way in which the reading stops; nothing else is settled.  The attempt is over if nothing
is put off, and else ends with what is, in order, for an error that allows it.  A fatal error ends
the attempt on the spot: only what came before it has been acted on, and nothing after it is. -/
theorem attempt_accounts (found : r.client.dispatch? d.id = some d)
    (phase : d.phase = .reading deadline { unanswered := named d.items })
    (distinct : (named d.items).Nodup) (reads : ∀ event ∈ events, event.ReadsOn d.id)
    (lasting : ∀ reply ∈ repliesIn events, reply.fatal? = none) :
    (∀ stop : Stop, (stop = .deadline → deadline ≤ (r.after events).2.client.now) →
      ∃ rest ending,
        Accounted d.items (fate stop (words (repliesIn events)))
          (ledger (named d.items) stop (words (repliesIn events))) rest ∧
        PutsOff rest ending ∧
        r.after (events ++ [stop.event d.id]) = ([], { r with
          client := Client.concluded { r.client with now := (r.after events).2.client.now } d
            (ledger (named d.items) stop (words (repliesIn events)))
            (violations (named d.items) stop (repliesIn events)) ending })) ∧
    ∀ reply e, reply.fatal? = some e →
      (settlements (named d.items) (words (repliesIn events))).Perm
        (d.items.filterMap fun i => (heard (words (repliesIn events)) i.token).bind (·.settlement? i.token)) ∧
      r.after (events ++ [.reply d.id reply]) = ([], { r with
        client := Client.concluded { r.client with now := (r.after events).2.client.now } d
          (settlements (named d.items) (words (repliesIn events)))
          (violationsRead (named d.items) (repliesIn events)) (.fatal e) }) ∧
      ∀ (late : List Reply) (stop : Stop),
        (r.after (events ++ [.reply d.id reply])).2.after (late.map (.reply d.id) ++ [stop.event d.id]) =
          ([], (r.after (events ++ [.reply d.id reply])).2) := by
  refine ⟨fun stop passed => ?_, fun reply e fatal => ?_⟩
  · obtain ⟨ending, off, ends⟩ := after_stop found phase reads lasting stop passed
    exact ⟨_, ending, accounted_ledger distinct stop (words (repliesIn events)), off, ends⟩
  · have settled := settlements_perm distinct (words (repliesIn events))
    rw [List.filterMap_map] at settled
    have ended := after_fatal found phase reads lasting fatal
    refine ⟨settled, ended, fun late stop => ?_⟩
    rw [ended]
    exact after_absent (Client.dispatch?_fatal _ d e) late stop

/-- Three checks that are sent together. -/
def threeSent : List Event :=
  [.submit mayAliceView, .submit mayAliceView, .submit mayAliceView, .due ⟨1⟩ true, .connected ⟨1⟩ (.ok ())]

/-- One of them is answered, twice; one is to be tried again, with a check that was never sent; of
the third nothing is heard before the deadline. -/
def partlyAnswered : List Event :=
  [.reply ⟨1⟩ (.result ⟨2⟩ {}), .elapse (.ofMilliseconds 600),
    .reply ⟨1⟩ (.failed [⟨1⟩, ⟨9⟩] (.status .unavailable "busy")), .reply ⟨1⟩ (.result ⟨2⟩ {}),
    .elapse (.ofMilliseconds 600)]

/-- One call is made, two checks are put off, and two violations are counted. -/
theorem partly_answered_accounts :
    ∃ r d deadline, r = ((fresh { maxBatchSize := 3 } .horizon).after threeSent).2 ∧
      r.client.dispatch? d.id = some d ∧ d.phase = .reading deadline { unanswered := named d.items } ∧
      (named d.items).Nodup ∧ (∀ event ∈ partlyAnswered, event.ReadsOn d.id) ∧
      (∀ reply ∈ repliesIn partlyAnswered, reply.fatal? = none) ∧
      deadline ≤ (r.after partlyAnswered).2.client.now ∧
      ∃ rest e, named rest = [⟨1⟩, ⟨3⟩] ∧
        r.after (partlyAnswered ++ [.deadline d.id]) = ([], { r with
          client := Client.concluded { r.client with now := (r.after partlyAnswered).2.client.now } d
            [.resolve ⟨2⟩ {}] 2 (.retry rest e) }) := by
  generalize same : ((fresh { maxBatchSize := 3 } .horizon).after threeSent).2 = r
  have opened : r.opens ⟨1⟩ = true := by rw [← same]; decide +kernel
  have held : (r.client.dispatch? ⟨1⟩).map (fun d => named d.items) = some [⟨1⟩, ⟨2⟩, ⟨3⟩] := by
    rw [← same]
    decide +kernel
  have late : (r.client.dispatch? ⟨1⟩).any (fun d => match d.phase with
      | .reading deadline _ => decide (deadline ≤ (r.after partlyAnswered).2.client.now)
      | _ => false) = true := by
    rw [← same]
    decide +kernel
  obtain ⟨d, deadline, id, found, phase⟩ := exists_of_opens opened
  rw [← id, found] at held late
  have items : named d.items = [⟨1⟩, ⟨2⟩, ⟨3⟩] := Option.some.inj held
  have distinct : (named d.items).Nodup := by rw [items]; decide
  have reads : ∀ event ∈ partlyAnswered, event.ReadsOn d.id := by simp [partlyAnswered, Event.ReadsOn, id]
  have lasting : ∀ reply ∈ repliesIn partlyAnswered, reply.fatal? = none := by decide
  have passed : deadline ≤ (r.after partlyAnswered).2.client.now := by simpa [phase] using late
  obtain ⟨rest, ending, accounts, off, ends⟩ :=
    (attempt_accounts found phase distinct reads lasting).1 .deadline fun _ => passed
  have kept : named rest = [⟨1⟩, ⟨3⟩] := by
    have tokens : named rest = (named d.items).filter fun t =>
        (fate .deadline (words (repliesIn partlyAnswered)) t).isDeferred := by
      rw [accounts.putOff, named, List.filter_map]
      rfl
    rw [tokens, items]
    rfl
  cases off with
  | settled => cases kept
  | retry rest some e again =>
    rw [items] at ends
    exact ⟨r, d, deadline, rfl, found, phase, distinct, reads, lasting, passed, rest, e, kept, ends⟩

end Run

end PolicyClient
