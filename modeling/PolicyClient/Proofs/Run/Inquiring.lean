/-
# PolicyClient.Proofs.Run.Inquiring -- several checks are asked in order, or none is

The caller of an inquiry moves among everything else that happens to a run (`Errand.follow`), and
nobody else uses the handles it has (`Errand.Undisturbed`).  `Errand.Stands` says for each stage of
an inquiry which of its checks are spent (`Run.Done`), and on what, and which are open (`Run.Open`).
Every turn keeps it (`Errand.Proceeds.take`), so that it holds of the whole run;
`Errand.inquiry_in_order` reads off what the caller gets.
-/
import PolicyClient.Inquiry
import PolicyClient.Proofs.Check.Entries
import PolicyClient.Proofs.Run.Standing

namespace PolicyClient

set_option autoImplicit false

namespace Run

/-- In the course of these events the check was asked, with this question. -/
def Asked (r₀ : Run) (events : List Event) (check : Token × Request) : Prop :=
  ∃ before since, events = before ++ .submit check.2 :: since ∧
    .issued check.1 ∈ ((r₀.after before).2.step (.submit check.2)).1

theorem Asked.snoc {r₀ : Run} {events : List Event} {check : Token × Request} (h : r₀.Asked events check)
    (event : Event) : r₀.Asked (events ++ [event]) check := by
  obtain ⟨before, since, rfl, issued⟩ := h
  exact ⟨before, since ++ [event], by simp, issued⟩

end Run

/-! ## An inquiry among everything else -/

/-- Who moves next: the caller of an inquiry, or something else happens. -/
inductive Turn
  | own
  | other (event : Event)

/-- What else happens. -/
def Turn.other? : Turn → Option Event
  | own => none
  | other event => some event

/-- An inquiry under way in a run, with the checks it has asked and their questions. -/
structure Errand where
  run : Run
  inquiry : Inquiry
  asked : List (Token × Request) := []

/-- The check that a move has asked, with its question. -/
def Event.asks : Event → List Observation → List (Token × Request)
  | .submit q, shown => (Observation.issued? shown).toList.map fun t => (t, q)
  | _, _ => []

/-- The question that an event asks. -/
def Event.question? : Event → Option Request
  | .submit q => some q
  | _ => none

namespace Errand

def tokens (x : Errand) : List Token := x.asked.map Prod.fst

/-- What happens in a turn, if anything. -/
def event? (x : Errand) : Turn → Option Event
  | .own => x.inquiry.move?
  | .other event => some event

def take (x : Errand) (turn : Turn) : Errand :=
  match x.event? turn with
  | none => x
  | some event =>
    let (shown, run) := x.run.step event
    match turn with
    | .other _ => { x with run }
    | .own => { run, inquiry := (x.inquiry.proceed? shown).getD x.inquiry, asked := x.asked ++ event.asks shown }

/-- All that happens in some turns, and where they lead. -/
def follow (x : Errand) : List Turn → List Event × Errand
  | [] => ([], x)
  | turn :: turns => ((x.event? turn).toList ++ ((x.take turn).follow turns).1, ((x.take turn).follow turns).2)

/-- The questions that the caller asks in some turns. -/
def submissions (x : Errand) : List Turn → List Request
  | [] => []
  | .own :: turns => (x.inquiry.move?.bind Event.question?).toList ++ (x.take .own).submissions turns
  | .other event :: turns => (x.take (.other event)).submissions turns

/-- In the turns of others nobody uses a handle of the inquiry. -/
def Undisturbed (x : Errand) : List Turn → Prop
  | [] => True
  | turn :: turns =>
    (∀ event, turn = .other event → ∀ t ∈ x.tokens, ¬ event.Uses t) ∧ (x.take turn).Undisturbed turns

end Errand

namespace Inquiry

/-- The questions that are still to be asked. -/
def unasked : Inquiry → List Request
  | asking question rest _ => question :: rest
  | _ => []

/-- The moves that are left at most, apart from those that find nothing yet. -/
def movesLeft : Inquiry → Nat
  | asking _ rest asked => 2 * (rest.length + 1) + asked.length
  | awaiting _ rest _ | leaving _ rest _ => rest.length + 1
  | finished _ => 0

@[simp] theorem unasked_await (answers : List Answer) (tokens : List Token) :
    (await answers tokens).unasked = [] := by cases tokens <;> rfl

@[simp] theorem unasked_leave (e : Error) (tokens : List Token) : (leave e tokens).unasked = [] := by
  cases tokens <;> rfl

@[simp] theorem unasked_ask (asked : List Token) (questions : List Request) :
    (ask asked questions).unasked = questions := by
  cases questions with
  | nil => exact unasked_await [] asked
  | cons question rest => rfl

@[simp] theorem movesLeft_await (answers : List Answer) (tokens : List Token) :
    (await answers tokens).movesLeft = tokens.length := by cases tokens <;> rfl

@[simp] theorem movesLeft_leave (e : Error) (tokens : List Token) :
    (leave e tokens).movesLeft = tokens.length := by cases tokens <;> rfl

@[simp] theorem movesLeft_ask (asked : List Token) (questions : List Request) :
    (ask asked questions).movesLeft = 2 * questions.length + asked.length := by
  cases questions with
  | nil => simp [ask]
  | cons question rest => rfl

end Inquiry

namespace Errand

open Run (Open Done told)

variable {config : Config} {horizon : Instant} {events : List Event}

/-- These checks have been told these answers, in order. -/
def Answered (config : Config) (horizon : Instant) (events : List Event) (answers : List Answer) (tokens : List Token) : Prop :=
  List.Forall₂ (fun a t => Done config horizon events t [.ok a]) answers tokens

theorem Answered.snoc {answers : List Answer} {tokens : List Token} (h : Answered config horizon events answers tokens)
    {t : Token} {a : Answer} (done : Done config horizon events t [.ok a]) :
    Answered config horizon events (answers ++ [a]) (tokens ++ [t]) :=
  List.rel_append h (.cons done .nil)

/-- Where the checks of an inquiry stand. -/
inductive Stands (config : Config) (horizon : Instant) (events : List Event) : Inquiry → List Token → Prop
  | asking (question : Request) (rest : List Request) (tokens : List Token)
      (waiting : ∀ t ∈ tokens, Open config horizon events t) :
    Stands config horizon events (.asking question rest tokens) tokens
  | awaiting (answers : List Answer) (early : List Token) (token : Token) (rest : List Token)
      (answered : Answered config horizon events answers early) (waiting : ∀ t ∈ token :: rest, Open config horizon events t) :
    Stands config horizon events (.awaiting token rest answers) (early ++ token :: rest)
  | leaving (answers : List Answer) (early : List Token) (failed : Token) (left : List Token) (token : Token)
      (rest : List Token) (e : Error) (answered : Answered config horizon events answers early)
      (failure : Done config horizon events failed [.error e]) (given : ∀ t ∈ left, Done config horizon events t [])
      (waiting : ∀ t ∈ token :: rest, Open config horizon events t) :
    Stands config horizon events (.leaving token rest e) (early ++ failed :: (left ++ token :: rest))
  | answered (answers : List Answer) (tokens : List Token) (answered : Answered config horizon events answers tokens) :
    Stands config horizon events (.finished (.ok answers)) tokens
  | failed (answers : List Answer) (early : List Token) (failed : Token) (left : List Token) (e : Error)
      (answered : Answered config horizon events answers early) (failure : Done config horizon events failed [.error e])
      (given : ∀ t ∈ left, Done config horizon events t []) :
    Stands config horizon events (.finished (.error e)) (early ++ failed :: left)

theorem Answered.done {answers : List Answer} {tokens : List Token} (h : Answered config horizon events answers tokens) :
    ∀ t ∈ tokens, ∃ a, Done config horizon events t [.ok a] := by
  induction h with
  | nil => simp
  | cons first _ ih => exact List.forall_mem_cons.2 ⟨⟨_, first⟩, ih⟩

/-! ## One turn -/

theorem Answered.step {answers : List Answer} {tokens : List Token} (h : Answered config horizon events answers tokens)
    {event : Event} (apart : ∀ t ∈ tokens, ¬ event.Uses t) :
    Answered config horizon (events ++ [event]) answers tokens := by
  induction h with
  | nil => exact .nil
  | cons first _ ih =>
    refine .cons (first.step (apart _ (List.mem_cons_self ..))) (ih fun t member => ?_)
    exact apart t (List.mem_cons_of_mem _ member)

theorem Stands.of_awaiting {token : Token} {rest : List Token} {answers : List Answer} {tokens : List Token}
    (h : Stands config horizon events (.awaiting token rest answers) tokens) :
    ∃ early, tokens = early ++ token :: rest ∧ Answered config horizon events answers early ∧
      ∀ t ∈ token :: rest, Open config horizon events t := by
  cases h with
  | awaiting answers early token rest answered waiting => exact ⟨early, rfl, answered, waiting⟩

theorem Stands.of_leaving {token : Token} {rest : List Token} {e : Error} {tokens : List Token}
    (h : Stands config horizon events (.leaving token rest e) tokens) :
    ∃ answers early failed left, tokens = early ++ failed :: (left ++ token :: rest) ∧
      Answered config horizon events answers early ∧ Done config horizon events failed [.error e] ∧
      (∀ t ∈ left, Done config horizon events t []) ∧ ∀ t ∈ token :: rest, Open config horizon events t := by
  cases h with
  | leaving answers early failed left token rest e answered failure given waiting =>
    exact ⟨answers, early, failed, left, rfl, answered, failure, given, waiting⟩

theorem Stands.of_asking {question : Request} {rest : List Request} {asked tokens : List Token}
    (h : Stands config horizon events (.asking question rest asked) tokens) :
    asked = tokens ∧ ∀ t ∈ tokens, Open config horizon events t := by
  cases h with
  | asking question rest tokens waiting => exact ⟨rfl, waiting⟩

/-- What uses none of the handles leaves the checks as they stand. -/
theorem Stands.step {inquiry : Inquiry} {tokens : List Token} (h : Stands config horizon events inquiry tokens)
    {event : Event} (apart : ∀ t ∈ tokens, ¬ event.Uses t) :
    Stands config horizon (events ++ [event]) inquiry tokens := by
  have waiting {l : List Token} (within : ∀ t ∈ l, ¬ event.Uses t) (waiting : ∀ t ∈ l, Open config horizon events t) :
      ∀ t ∈ l, Open config horizon (events ++ [event]) t := fun t member => (waiting t member).step (within t member)
  have given {l : List Token} (within : ∀ t ∈ l, ¬ event.Uses t) (given : ∀ t ∈ l, Done config horizon events t []) :
      ∀ t ∈ l, Done config horizon (events ++ [event]) t [] := fun t member => (given t member).step (within t member)
  cases h with
  | asking question rest tokens all => exact .asking question rest _ (waiting apart all)
  | awaiting answers early token rest answered open_ =>
    rw [List.forall_mem_append] at apart
    exact .awaiting answers early token rest (answered.step apart.1) (waiting apart.2 open_)
  | leaving answers early failed left token rest e answered failure gone open_ =>
    rw [List.forall_mem_append, List.forall_mem_cons, List.forall_mem_append] at apart
    obtain ⟨before, own, given', after⟩ := apart
    exact .leaving answers early failed left token rest e (answered.step before) (failure.step own)
      (given given' gone) (waiting after open_)
  | answered answers tokens answered => exact .answered answers tokens (answered.step apart)
  | failed answers early failed left e answered failure gone =>
    rw [List.forall_mem_append, List.forall_mem_cons] at apart
    obtain ⟨before, own, given'⟩ := apart
    exact .failed answers early failed left e (answered.step before) (failure.step own) (given given' gone)

theorem stands_await {answers : List Answer} {early rest : List Token}
    (answered : Answered config horizon events answers early) (waiting : ∀ t ∈ rest, Open config horizon events t) :
    Stands config horizon events (.await answers rest) (early ++ rest) := by
  cases rest with
  | nil =>
    rw [List.append_nil]
    exact .answered answers early answered
  | cons token rest => exact .awaiting answers early token rest answered waiting

theorem stands_leave {answers : List Answer} {early rest : List Token} {failed : Token} {e : Error}
    (left : List Token) (answered : Answered config horizon events answers early)
    (failure : Done config horizon events failed [.error e])
    (given : ∀ t ∈ left, Done config horizon events t []) (waiting : ∀ t ∈ rest, Open config horizon events t) :
    Stands config horizon events (.leave e rest) (early ++ failed :: (left ++ rest)) := by
  cases rest with
  | nil =>
    rw [List.append_nil]
    exact .failed answers early failed left e answered failure given
  | cons token rest => exact .leaving answers early failed left token rest e answered failure given waiting

theorem stands_ask {tokens : List Token} (questions : List Request)
    (waiting : ∀ t ∈ tokens, Open config horizon events t) :
    Stands config horizon events (.ask tokens questions) tokens := by
  cases questions with
  | nil =>
    change Stands config horizon events (.await [] tokens) ([] ++ tokens)
    exact stands_await .nil waiting
  | cons question rest => exact .asking question rest tokens waiting

/-- An inquiry after some history: the questions it has asked and those it has not are `questions`, in
order, each check has been issued to its question, and the checks stand as they should. -/
structure Proceeds (config : Config) (horizon : Instant) (questions : List Request) (events : List Event) (x : Errand) : Prop where
  run : x.run = ((Run.fresh config horizon).after events).2
  questions : x.asked.map Prod.snd ++ x.inquiry.unasked = questions
  stands : Stands config horizon events x.inquiry x.tokens
  ordered : x.tokens.Pairwise fun t t' => t.number < t'.number
  issued : ∀ t ∈ x.tokens, t.number ≤ x.run.client.ids.tokens
  submitted : ∀ check ∈ x.asked, (Run.fresh config horizon).Asked events check

/-- In an ordered list a token stands once. -/
theorem others_of_ordered {early rest : List Token} {t : Token}
    (ordered : (early ++ t :: rest).Pairwise fun t t' => t.number < t'.number) :
    (∀ t' ∈ early, t ≠ t') ∧ ∀ t' ∈ rest, t ≠ t' := by
  obtain ⟨-, after, before⟩ := List.pairwise_append.1 ordered
  refine ⟨fun t' member same => ?_, fun t' member same => ?_⟩
  · have lt := before t' member t (List.mem_cons_self ..)
    rw [same] at lt
    exact Nat.lt_irrefl _ lt
  · have lt := (List.pairwise_cons.1 after).1 t' member
    rw [same] at lt
    exact Nat.lt_irrefl _ lt

variable {questions : List Request} {x : Errand}

theorem take_own {event : Event} (moves : x.inquiry.move? = some event) :
    x.take .own =
      { run := (x.run.step event).2
        inquiry := (x.inquiry.proceed? (x.run.step event).1).getD x.inquiry
        asked := x.asked ++ event.asks (x.run.step event).1 } := by
  simp only [take, event?, moves]

namespace Proceeds

/-- An event that asks nothing leaves what has been asked. -/
theorem keep (h : Proceeds config horizon questions events x) (event : Event) (inquiry : Inquiry)
    (unasked : inquiry.unasked = x.inquiry.unasked)
    (stands : Stands config horizon (events ++ [event]) inquiry x.tokens) :
    Proceeds config horizon questions (events ++ [event]) { x with run := (x.run.step event).2, inquiry } where
  run := by
    rw [Run.after_snoc, h.run]
  questions := by
    rw [unasked]
    exact h.questions
  stands := stands
  ordered := h.ordered
  issued t member := by
    have sound := ((Run.fresh_sound_run config horizon).after events).client
    rw [← h.run] at sound
    exact Nat.le_trans (h.issued t member) (Run.tokens_le_step sound event)
  submitted check member := (h.submitted check member).snoc event

/-- The caller makes a move that asks nothing. -/
theorem keep_own (h : Proceeds config horizon questions events x) {event : Event} (moves : x.inquiry.move? = some event)
    (quiet : ∀ shown, event.asks shown = []) (inquiry : Inquiry)
    (goes : (x.inquiry.proceed? (((Run.fresh config horizon).after events).2.step event).1).getD x.inquiry = inquiry)
    (unasked : inquiry.unasked = x.inquiry.unasked)
    (stands : Stands config horizon (events ++ [event]) inquiry x.tokens) :
    Proceeds config horizon questions (events ++ [event]) (x.take .own) := by
  rw [take_own moves, quiet, List.append_nil, h.run, goes, ← h.run]
  exact h.keep event inquiry unasked stands

/-- A question is asked: its check is open from then on. -/
theorem take_asking {question : Request} {rest : List Request} {asked : List Token}
    (h : Proceeds config horizon questions events x) (stage : x.inquiry = .asking question rest asked) :
    Proceeds config horizon questions (events ++ [.submit question]) (x.take .own) := by
  have sound := ((Run.fresh_sound_run config horizon).after events).client
  have moves : x.inquiry.move? = some (.submit question) := by
    rw [stage]
    rfl
  obtain ⟨rfl, waiting⟩ := (stage ▸ h.stands).of_asking
  let token := ((Run.fresh config horizon).after events).2.client.ids.nextToken.1
  have shown := Run.shown_submit sound question
  have taken : x.take .own =
      { run := (((Run.fresh config horizon).after events).2.step (.submit question)).2
        inquiry := .ask (x.tokens ++ [token]) rest
        asked := x.asked ++ [(token, question)] } := by
    rw [take_own moves, stage, h.run, shown]
    rfl
  have new : (x.take .own).tokens = x.tokens ++ [token] := by
    rw [taken, tokens, List.map_append]
    rfl
  have issued : ∀ t ∈ x.tokens, t.number < token.number := fun t member => by
    have le := h.issued t member
    rw [h.run] at le
    exact Nat.lt_succ_of_le le
  refine ⟨?_, ?_, ?_, ?_, ?_, ?_⟩
  · rw [taken, Run.after_snoc]
  · rw [← h.questions, taken, stage, Inquiry.unasked_ask, List.map_append, List.append_assoc]
    rfl
  · rw [new, taken]
    refine stands_ask rest fun t member => ?_
    rcases List.mem_append.1 member with before | last
    · exact (waiting t before).step id
    · rw [List.mem_singleton.1 last]
      exact Run.open_of_submit config horizon events question
  · rw [new, List.pairwise_append]
    refine ⟨h.ordered, List.pairwise_singleton .., fun t member t' last => ?_⟩
    rw [List.mem_singleton.1 last]
    exact issued t member
  · intro t member
    have all := Run.issued_of_submit sound question
    rw [new] at member
    rw [taken]
    rcases List.mem_append.1 member with before | last
    · exact Nat.le_trans (Nat.le_of_lt (issued t before)) all
    · rw [List.mem_singleton.1 last]
      exact all
  · intro check member
    rw [taken] at member
    rcases List.mem_append.1 member with before | last
    · exact (h.submitted check before).snoc _
    · rw [List.mem_singleton.1 last]
      refine ⟨events, [], rfl, ?_⟩
      rw [shown]
      exact List.mem_cons_self ..

/-- The outcome of a check is looked for: the caller waits on, takes the answer, or leaves. -/
theorem take_awaiting {token : Token} {rest : List Token} {answers : List Answer}
    (h : Proceeds config horizon questions events x) (stage : x.inquiry = .awaiting token rest answers) :
    Proceeds config horizon questions (events ++ [.poll token]) (x.take .own) := by
  have moves : x.inquiry.move? = some (.poll token) := by
    rw [stage]
    rfl
  obtain ⟨early, named, answered, waiting⟩ := (stage ▸ h.stands).of_awaiting
  obtain ⟨before, after⟩ := others_of_ordered (named ▸ h.ordered)
  have answered' : Answered config horizon (events ++ [.poll token]) answers early := answered.step before
  have waiting' : ∀ t ∈ rest, Open config horizon (events ++ [.poll token]) t := fun t member =>
    (waiting t (List.mem_cons_of_mem _ member)).step (after t member)
  rcases (waiting token (List.mem_cons_self ..)).poll with ⟨nothing, waits, -⟩ | ⟨o, shown, done⟩
  · refine h.keep_own moves (fun _ => rfl) x.inquiry ?_ rfl ?_
    · rw [nothing, stage]
      rfl
    · rw [named, stage]
      exact .awaiting answers early token rest answered' (List.forall_mem_cons.2 ⟨waits, waiting'⟩)
  · cases o with
    | ok answer =>
      refine h.keep_own moves (fun _ => rfl) (.await (answers ++ [answer]) rest) ?_ ?_ ?_
      · rw [shown, stage]
        rfl
      · rw [stage, Inquiry.unasked_await]
        rfl
      · rw [named, List.append_cons early token rest]
        exact stands_await (answered'.snoc done) waiting'
    | error e =>
      refine h.keep_own moves (fun _ => rfl) (.leave e rest) ?_ ?_ ?_
      · rw [shown, stage]
        rfl
      · rw [stage, Inquiry.unasked_leave]
        rfl
      · rw [named]
        exact stands_leave [] answered' done nofun waiting'

/-- A handle is given up. -/
theorem take_leaving {token : Token} {rest : List Token} {e : Error} (h : Proceeds config horizon questions events x)
    (stage : x.inquiry = .leaving token rest e) :
    Proceeds config horizon questions (events ++ [.drop token]) (x.take .own) := by
  have moves : x.inquiry.move? = some (.drop token) := by
    rw [stage]
    rfl
  obtain ⟨answers, early, failed, left, named, answered, failure, given, waiting⟩ := (stage ▸ h.stands).of_leaving
  have split : x.tokens = (early ++ failed :: left) ++ token :: rest := by simp [named]
  obtain ⟨before, after⟩ := others_of_ordered (split ▸ h.ordered)
  rw [List.forall_mem_append, List.forall_mem_cons] at before
  obtain ⟨others, own, others'⟩ := before
  have answered' : Answered config horizon (events ++ [.drop token]) answers early := answered.step others
  have given' : ∀ t ∈ left ++ [token], Done config horizon (events ++ [.drop token]) t [] := fun t member => by
    rcases List.mem_append.1 member with already | last
    · exact (given t already).step (others' t already)
    · rw [List.mem_singleton.1 last]
      exact (waiting token (List.mem_cons_self ..)).drop
  have waiting' : ∀ t ∈ rest, Open config horizon (events ++ [.drop token]) t := fun t member =>
    (waiting t (List.mem_cons_of_mem _ member)).step (after t member)
  refine h.keep_own moves (fun _ => rfl) (.leave e rest) ?_ ?_ ?_
  · rw [stage]
    rfl
  · rw [stage, Inquiry.unasked_leave]
    rfl
  · rw [named, List.append_cons left token rest]
    exact stands_leave (left ++ [token]) answered' (failure.step own) given' waiting'

/-- **Every turn** keeps an inquiry proceeding. -/
theorem take (h : Proceeds config horizon questions events x) {turn : Turn}
    (apart : ∀ event, turn = .other event → ∀ t ∈ x.tokens, ¬ event.Uses t) :
    Proceeds config horizon questions (events ++ (x.event? turn).toList) (x.take turn) := by
  cases turn with
  | other event => exact h.keep event x.inquiry rfl (h.stands.step (apart event rfl))
  | own =>
    cases stage : x.inquiry with
    | asking question rest asked =>
      have taken := h.take_asking stage
      simpa [event?, stage, Inquiry.move?] using taken
    | awaiting token rest answers =>
      have taken := h.take_awaiting stage
      simpa [event?, stage, Inquiry.move?] using taken
    | leaving token rest e =>
      have taken := h.take_leaving stage
      simpa [event?, stage, Inquiry.move?] using taken
    | finished outcome =>
      have none : x.event? .own = none := by simp [event?, stage, Inquiry.move?]
      simpa [Errand.take, none] using h

theorem follow (h : Proceeds config horizon questions events x) {turns : List Turn} (apart : x.Undisturbed turns) :
    Proceeds config horizon questions (events ++ (x.follow turns).1) (x.follow turns).2 := by
  induction turns generalizing x events with
  | nil => simpa [Errand.follow] using h
  | cons turn turns ih =>
    have later := ih (h.take apart.1) apart.2
    rw [List.append_assoc] at later
    exact later

/-- The caller's own move brings the inquiry nearer to its end, unless the check that it looks for waits. -/
theorem goes_on (h : Proceeds config horizon questions events x) (running : ∀ outcome, x.inquiry ≠ .finished outcome) :
    (x.take .own).inquiry.movesLeft < x.inquiry.movesLeft ∨
      ∃ token rest answers, x.inquiry = .awaiting token rest answers ∧
        x.run.client.correlator.isLive token = true := by
  cases stage : x.inquiry with
  | asking question rest asked =>
    left
    have moves : x.inquiry.move? = some (.submit question) := by
      rw [stage]
      rfl
    have shown := Run.shown_submit ((Run.fresh_sound_run config horizon).after events).client question
    rw [take_own moves, stage, h.run, shown]
    change (Inquiry.ask (asked ++ [_]) rest).movesLeft < 2 * (rest.length + 1) + asked.length
    rw [Inquiry.movesLeft_ask, List.length_append, List.length_singleton]
    omega
  | awaiting token rest answers =>
    have moves : x.inquiry.move? = some (.poll token) := by
      rw [stage]
      rfl
    obtain ⟨early, -, -, waiting⟩ := (stage ▸ h.stands).of_awaiting
    rcases (waiting token (List.mem_cons_self ..)).poll with ⟨-, -, live⟩ | ⟨o, shown, -⟩
    · rw [← h.run] at live
      exact .inr ⟨token, rest, answers, rfl, live⟩
    · left
      rw [take_own moves, stage, h.run, shown]
      cases o with
      | ok answer =>
        change (Inquiry.await (answers ++ [answer]) rest).movesLeft < rest.length + 1
        rw [Inquiry.movesLeft_await]
        exact Nat.lt_succ_self _
      | error e =>
        change (Inquiry.leave e rest).movesLeft < rest.length + 1
        rw [Inquiry.movesLeft_leave]
        exact Nat.lt_succ_self _
  | leaving token rest e =>
    left
    have moves : x.inquiry.move? = some (.drop token) := by
      rw [stage]
      rfl
    rw [take_own moves, stage]
    change (Inquiry.leave e rest).movesLeft < rest.length + 1
    rw [Inquiry.movesLeft_leave]
    exact Nat.lt_succ_self _
  | finished outcome => exact absurd stage (running outcome)

end Proceeds

/-! ## Every run -/

/-- The caller starts to ask on behalf of a principal. -/
def of (run : Run) (principal : Principal) (entries : List (Resource × List String)) : Errand where
  run
  inquiry := .of principal entries

/-- What the caller of these checks gets: the answer to each, in order, or the error of the first that
has failed.  Of the later ones it hears nothing then, and none of them is live. -/
inductive Yields (run : Run) (shown : List Observation) : List Token → Except Error (List Answer) → Prop
  | answers (answers : List Answer) (tokens : List Token)
      (each : List.Forall₂ (fun a t => told t shown = [.ok a]) answers tokens) :
    Yields run shown tokens (.ok answers)
  | error (early : List Token) (failed : Token) (late : List Token) (e : Error)
      (answered : ∀ t ∈ early, ∃ a, told t shown = [.ok a]) (failure : told failed shown = [.error e])
      (unheard : ∀ t ∈ late, told t shown = [])
      (gone : ∀ t ∈ early ++ failed :: late, run.client.correlator.isLive t = false) :
    Yields run shown (early ++ failed :: late) (.error e)

theorem Stands.yields {outcome : Except Error (List Answer)} {tokens : List Token}
    (h : Stands config horizon events (.finished outcome) tokens) :
    Yields ((Run.fresh config horizon).after events).2 ((Run.fresh config horizon).after events).1 tokens outcome := by
  have dead {t : Token} {outcomes : List Outcome} (done : Done config horizon events t outcomes) :
      ((Run.fresh config horizon).after events).2.client.correlator.isLive t = false :=
    (Correlator.isLive_eq_false_iff _ t).2 done.gone
  cases h with
  | answered answers tokens answered => exact .answers answers tokens (answered.imp fun _ _ done => done.told)
  | failed answers early failed left e answered failure given =>
    refine .error early failed left e (fun t member => ?_) failure.told (fun t member => (given t member).told) ?_
    · obtain ⟨a, done⟩ := answered.done t member
      exact ⟨a, done.told⟩
    · rw [List.forall_mem_append, List.forall_mem_cons]
      refine ⟨fun t member => ?_, dead failure, fun t member => dead (given t member)⟩
      obtain ⟨a, done⟩ := answered.done t member
      exact dead done

theorem run_take (x : Errand) (turn : Turn) :
    (x.take turn).run = (x.run.after (x.event? turn).toList).2 := by
  cases happens : x.event? turn with
  | none => simp only [take, happens, Option.toList_none, Run.after_nil]
  | some event => cases turn <;> simp [take, happens, Run.after_cons]

theorem run_follow (x : Errand) (turns : List Turn) :
    (x.follow turns).2.run = (x.run.after (x.follow turns).1).2 := by
  induction turns generalizing x with
  | nil => rfl
  | cons turn turns ih => rw [follow, ih, run_take, Run.after_append]

/-- Each question that the caller asks has a check. -/
theorem asked_take_own (sound : x.run.client.Sound) :
    (x.take .own).asked.map Prod.snd = x.asked.map Prod.snd ++ (x.inquiry.move?.bind Event.question?).toList := by
  cases moves : x.inquiry.move? with
  | none => simp [take, event?, moves]
  | some event =>
    rw [take_own moves, List.map_append]
    cases event with
    | submit q => simp [Event.asks, Event.question?, Run.shown_submit sound, Observation.issued?]
    | _ => simp [Event.asks, Event.question?]

theorem asked_follow (sound : x.run.Sound) (turns : List Turn) :
    (x.follow turns).2.asked.map Prod.snd = x.asked.map Prod.snd ++ x.submissions turns := by
  induction turns generalizing x with
  | nil => exact (List.append_nil _).symm
  | cons turn turns ih =>
    have sound' : (x.take turn).run.Sound := by
      rw [run_take]
      exact sound.after _
    rw [follow, ih sound']
    cases turn with
    | own => rw [asked_take_own sound.client, submissions, List.append_assoc]
    | other event => rfl

/-- Once an inquiry has finished, only others make moves. -/
theorem follow_of_finished {outcome : Except Error (List Answer)} (finished : x.inquiry = .finished outcome)
    (turns : List Turn) :
    (x.follow turns).1 = turns.filterMap Turn.other? ∧ (x.follow turns).2.inquiry = .finished outcome ∧
      (x.follow turns).2.asked = x.asked := by
  induction turns generalizing x with
  | nil => exact ⟨rfl, finished, rfl⟩
  | cons turn turns ih =>
    cases turn with
    | own =>
      have stays : x.event? .own = none := by rw [event?, finished]; rfl
      have same : x.take .own = x := by rw [take, stays]
      rw [follow, stays, same]
      exact ih finished
    | other event =>
      obtain ⟨happened, ended, asked⟩ := ih (x := x.take (.other event)) finished
      exact ⟨congrArg (event :: ·) happened, ended, asked⟩

theorem proceeds_ask (config : Config) (horizon : Instant) (events : List Event) (questions : List Request) :
    Proceeds config horizon questions events
      { run := ((Run.fresh config horizon).after events).2, inquiry := .ask [] questions } where
  run := rfl
  questions := Inquiry.unasked_ask [] questions
  stands := stands_ask questions (by simp)
  ordered := .nil
  issued := by simp [tokens]
  submitted := by simp

/-- **Several checks are asked in order, or none is.**  In every run, whatever others do in the meantime and
whatever the transport reports, as long as nobody else has the handles of an inquiry:

an entry that makes no question is what the caller is told, the first one of them, and the client has
seen nothing of the inquiry;

else one question for each entry is asked, in order, and each once.  When the inquiry has finished, all of
them have been, and it yields the outcomes of their own checks.  Until then each move of the caller
brings it nearer to its end, unless the check that is waited for is live. -/
theorem inquiry_in_order {r₀ : Run} (started : Run.start config horizon = .ok r₀) (before : List Event)
    (principal : Principal) (entries : List (Resource × List String)) (turns : List Turn)
    (undisturbed : (of (r₀.after before).2 principal entries).Undisturbed turns)
    {since : List Event} (led : (of (r₀.after before).2 principal entries).follow turns = (since, x)) :
    x.run = (r₀.after (before ++ since)).2 ∧
    (∀ early entry late e, entries = early ++ entry :: late →
      (∀ earlier ∈ early, ∀ e', ¬ Request.Fault earlier.1 earlier.2 e') → Request.Fault entry.1 entry.2 e →
      x.inquiry = .finished (.error e) ∧ x.asked = [] ∧ since = turns.filterMap Turn.other?) ∧
    ((∀ entry ∈ entries, ∀ e, ¬ Request.Fault entry.1 entry.2 e) →
      ∃ questions, List.Forall₂ (fun entry q => q.Asks principal entry) entries questions ∧
        (of (r₀.after before).2 principal entries).submissions turns = x.asked.map Prod.snd ∧
        x.asked.map Prod.snd <+: questions ∧
        (x.tokens.Pairwise fun t t' => t.number < t'.number) ∧
        (∀ check ∈ x.asked, r₀.Asked (before ++ since) check) ∧
        (∀ outcome, x.inquiry = .finished outcome → x.asked.map Prod.snd = questions ∧
          Yields x.run (r₀.after (before ++ since)).1 x.tokens outcome) ∧
        ((∀ outcome, x.inquiry ≠ .finished outcome) →
          (x.take .own).inquiry.movesLeft < x.inquiry.movesLeft ∨
            ∃ token rest answers, x.inquiry = .awaiting token rest answers ∧
              x.run.client.correlator.isLive token = true)) := by
  obtain ⟨-, rfl⟩ := (Run.start_eq_ok_iff config horizon r₀).1 started
  obtain ⟨rfl, rfl⟩ := Prod.ext_iff.1 led
  refine ⟨?_, ?_, ?_⟩
  · rw [run_follow, Run.after_append]
    rfl
  · intro early entry late e split passed fault
    have failed : Request.ofEntries principal entries = .error e :=
      (Request.ofEntries_eq_error_iff principal entries e).2 ⟨early, entry, late, split, passed, fault⟩
    have finished : (of ((Run.fresh config horizon).after before).2 principal entries).inquiry = .finished (.error e) := by
      simp only [of, Inquiry.of, failed]
    obtain ⟨happened, ended, asked⟩ := follow_of_finished finished turns
    exact ⟨ended, asked, happened⟩
  · intro faultless
    cases made : Request.ofEntries principal entries with
    | error e =>
      obtain ⟨early, entry, late, split, -, fault⟩ := (Request.ofEntries_eq_error_iff principal entries e).1 made
      refine absurd fault (faultless entry ?_ e)
      rw [split]
      exact List.mem_append_right _ (List.mem_cons_self ..)
    | ok questions =>
      have begins : of ((Run.fresh config horizon).after before).2 principal entries =
          { run := ((Run.fresh config horizon).after before).2, inquiry := .ask [] questions } := by
        simp only [of, Inquiry.of, made]
      have proceeds := (proceeds_ask config horizon before questions).follow (begins ▸ undisturbed)
      rw [← begins] at proceeds
      have submitted := asked_follow (x := of ((Run.fresh config horizon).after before).2 principal entries)
        ((Run.fresh_sound_run config horizon).after before) turns
      refine ⟨questions, Request.asks_of_ofEntries made, submitted.symm, ⟨_, proceeds.questions⟩, proceeds.ordered,
        proceeds.submitted, fun outcome finished => ⟨?_, ?_⟩, proceeds.goes_on⟩
      · have all := proceeds.questions
        rw [finished] at all
        simpa [Inquiry.unasked] using all
      · have stands := proceeds.stands
        rw [finished] at stands
        rw [proceeds.run]
        exact stands.yields

/-- May alice view these documents? -/
def twoDocuments : List (Resource × List String) :=
  [(⟨"document", "1", .empty, none, none⟩, ["view"]), (⟨"document", "2", .empty, none, none⟩, ["view"])]

/-- The caller asks both questions and waits.  The answers arrive, that to the second question first,
and the caller takes them. -/
def twoAnswers : List Turn :=
  [.own, .own, .other (.due ⟨1⟩ true), .other (.connected ⟨1⟩ (.ok ())), .other (.due ⟨2⟩ true),
    .other (.connected ⟨2⟩ (.ok ())), .own, .other (.reply ⟨2⟩ (.result ⟨2⟩ (.ofDecisions [(Run.view, .deny)]))),
    .other (.reply ⟨1⟩ (.result ⟨1⟩ (.ofDecisions [(Run.view, .allow)]))), .own, .own]

/-- The caller has the answers in the order of its entries. -/
theorem two_documents_in_order :
    Run.start { maxBatchSize := 1 } .horizon = .ok (Run.fresh { maxBatchSize := 1 } .horizon) ∧
      (of (Run.fresh { maxBatchSize := 1 } .horizon) Run.mayAliceView.principal twoDocuments).Undisturbed twoAnswers ∧
      (∀ entry ∈ twoDocuments, ∀ e, ¬ Request.Fault entry.1 entry.2 e) ∧
      ∃ since x, (of (Run.fresh { maxBatchSize := 1 } .horizon) Run.mayAliceView.principal twoDocuments).follow twoAnswers =
          (since, x) ∧
        x.inquiry = .finished (.ok [.ofDecisions [(Run.view, .allow)], .ofDecisions [(Run.view, .deny)]]) ∧
        Yields x.run ((Run.fresh { maxBatchSize := 1 } .horizon).after since).1 x.tokens
          (.ok [.ofDecisions [(Run.view, .allow)], .ofDecisions [(Run.view, .deny)]]) := by
  have started : Run.start { maxBatchSize := 1 } .horizon = .ok (Run.fresh { maxBatchSize := 1 } .horizon) := by rfl
  have undisturbed : (of (Run.fresh { maxBatchSize := 1 } .horizon) Run.mayAliceView.principal twoDocuments).Undisturbed
      twoAnswers := by
    simp [twoAnswers, Undisturbed, Event.Uses]
  have faultless : ∀ entry ∈ twoDocuments, ∀ e, ¬ Request.Fault entry.1 entry.2 e := by
    intro entry member e fault
    have failed : Request.ofNames Run.mayAliceView.principal entry.1 entry.2 = .error e :=
      (Request.ofNames_eq_error_iff e).2 fault
    simp only [twoDocuments, List.mem_cons, List.not_mem_nil, or_false] at member
    rcases member with rfl | rfl <;> cases failed
  have finished : ((of (Run.fresh { maxBatchSize := 1 } .horizon) Run.mayAliceView.principal twoDocuments).follow
      twoAnswers).2.inquiry =
      .finished (.ok [.ofDecisions [(Run.view, .allow)], .ofDecisions [(Run.view, .deny)]]) := by rfl
  obtain ⟨-, -, answered⟩ := inquiry_in_order started [] Run.mayAliceView.principal twoDocuments twoAnswers
    undisturbed rfl
  obtain ⟨questions, -, -, -, -, -, yields, -⟩ := answered faultless
  exact ⟨started, undisturbed, faultless, _, _, rfl, finished, (yields _ finished).2⟩

end Errand

end PolicyClient
