/-
# PolicyClient.Proofs.Run.Unasked -- what an answer says about actions that were not asked

An answer speaks only of a request (`Answer.SpeaksOnlyOf`) if it gives no decision on any action
that the request does not ask about, and so allows none.  On the way to the caller three things
could say more than was asked: the entry of a response, the result that is taken in, and what
the cache knew.

The cache gives decisions on actions of the request alone, so what it decides speaks only of the
request, and merging it into a result adds nothing about other actions.  But a result is passed
on whole, and so is an entry: nobody holds the actions that were asked against the ones that are
decided.  `Run.unasked_only_from_result` says it exactly: about an action that was not asked an
answer says what the one result says that was taken in for it, and so it speaks only of its
request if and only if that result does.  `Run.unasked_told` is a check for viewing whose answer
allows revising as well.
-/
import PolicyClient.Proofs.Check.Denial
import PolicyClient.Proofs.Run.Provenance

namespace PolicyClient

set_option autoImplicit false

/-- Whether the action of this name is among those asked about. -/
def Request.AsksAbout (r : Request) (name : String) : Prop := name ∈ r.actions.map Action.name

instance (r : Request) (name : String) : Decidable (r.AsksAbout name) :=
  inferInstanceAs (Decidable (name ∈ r.actions.map Action.name))

namespace Answer

/-- No action is decided, and none allowed, but those that the request asks about. -/
def SpeaksOnlyOf (a : Answer) (request : Request) : Prop :=
  ∀ name, ¬ request.AsksAbout name → a.decision? name = none ∧ a.isAllowed name = false

theorem isAllowed_congr {a b : Answer} {name : String} (same : a.decision? name = b.decision? name) :
    a.isAllowed name = b.isAllowed name := by
  rw [isAllowed, isAllowed, same]

theorem isAllowed_of_undecided {a : Answer} {name : String} (undecided : a.decision? name = none) :
    a.isAllowed name = false := by
  simp [isAllowed, undecided]

theorem speaksOnlyOf_iff (a : Answer) (request : Request) :
    a.SpeaksOnlyOf request ↔ ∀ name, ¬ request.AsksAbout name → a.decision? name = none :=
  ⟨fun only name unasked => (only name unasked).1,
    fun only name unasked => ⟨only name unasked, isAllowed_of_undecided (only name unasked)⟩⟩

/-- An answer that holds decisions on actions of a request alone speaks only of it. -/
theorem speaksOnlyOf_of_decisions {a : Answer} {request : Request}
    (held : ∀ action, action ∉ request.actions → a.decisions.get? action = none) :
    a.SpeaksOnlyOf request := by
  rw [speaksOnlyOf_iff]
  intro name unasked
  unfold decision?
  split
  · rfl
  · cases named : Action.ofName? name with
    | none => rfl
    | some action =>
      rw [Action.ofName?_eq_some_iff] at named
      exact held action fun member => unasked (named ▸ List.mem_map_of_mem member)

/-- What is known about actions of a request says nothing about others. -/
theorem decision?_merge_of_unasked (answer : Answer) {known : Table Action Decision} {request : Request}
    (within : ∀ action d, known.get? action = some d → action ∈ request.actions) {name : String}
    (unasked : ¬ request.AsksAbout name) : (answer.merge known).decision? name = answer.decision? name := by
  have complaints : (answer.merge known).hasValidationErrors = answer.hasValidationErrors := rfl
  rw [decision?, decision?, complaints]
  cases named : Action.ofName? name with
  | none => rfl
  | some action =>
    rw [Action.ofName?_eq_some_iff] at named
    have unknown : known.get? action = none := Option.eq_none_iff_forall_ne_some.2 fun d held =>
      unasked (named ▸ List.mem_map_of_mem (within action d held))
    simp only [Option.bind_some, get?_merge, unknown, Option.or_none]

/-- What comes off the wire speaks only of a request if the entry complains about an attribute,
or names only actions that the request asks about. -/
theorem speaksOnlyOf_ofEntry_iff (e : Wire.ResultEntry) (request : Request) :
    (ofEntry e).SpeaksOnlyOf request ↔
      e.validationErrors ≠ [] ∨ ∀ name effect, e.effect? name = some effect → request.AsksAbout name := by
  rw [speaksOnlyOf_iff]
  by_cases complaints : e.validationErrors = []
  · have silent : (ofEntry e).hasValidationErrors = false := by
      simp [hasValidationErrors, ofEntry, complaints]
    have decided : ∀ name, (ofEntry e).decision? name = (e.effect? name).map Decision.ofEffect := by
      intro name
      rw [decision?, silent, if_neg Bool.false_ne_true]
      by_cases empty : name = ""
      · simp [Action.ofName?, Wire.ResultEntry.effect?, empty]
      · simp only [Action.ofName?, empty, dif_neg, not_false_eq_true, Option.bind_some]
        exact get?_ofEntry e ⟨name, empty⟩
    simp only [decided, Option.map_eq_none_iff, complaints, ne_eq, not_true_eq_false, false_or]
    constructor
    · intro only name effect named
      refine Decidable.byContradiction fun unasked => ?_
      rw [only name unasked] at named
      cases named
    · intro asked name unasked
      exact Option.eq_none_iff_forall_ne_some.2 fun effect named => unasked (asked name effect named)
  · have loud : (ofEntry e).hasValidationErrors = true := by
      simp [hasValidationErrors, ofEntry, complaints]
    exact ⟨fun _ => .inl complaints, fun _ name _ => by rw [decision?, if_pos loud]⟩

end Answer

namespace Client

variable {c : Client} {request : Request}

/-- What the cache decides by itself speaks only of the request. -/
theorem Decides.speaksOnlyOf {a : Answer} (decides : c.Decides request a) : a.SpeaksOnlyOf request := by
  obtain ⟨store, -, -, held⟩ := decides.all
  exact Answer.speaksOnlyOf_of_decisions fun action absent => (held action).trans (if_neg absent)

/-- What is known of a request beforehand is about its own actions. -/
theorem mem_actions_of_prefill {action : Action} {d : Decision}
    (known : (c.prefill request).decisions.get? action = some d) : action ∈ request.actions := by
  unfold Client.prefill at known
  split at known
  · cases known
  · exact ((consult_consults _ request).decided action d known).1

end Client

namespace Run

/-- A result is taken in only under a token that somebody has still to see to. -/
theorem takings_of_unowed {r : Run} (sound : r.Sound) {t : Token} (issued : t.number ≤ r.client.ids.tokens)
    (unowed : ¬ r.client.owes t) (events : List Event) : r.takings t events = [] := by
  induction events generalizing r with
  | nil => rfl
  | cons event events ih =>
    have advances := step_advances sound event
    have untaken : r.takesIn? t event = none := by
      cases takes : r.takesIn? t event with
      | none => rfl
      | some taken =>
        obtain ⟨b, answer⟩ := taken
        have awaited := (reply_of_takesIn? takes).2
        exact absurd (Client.Sound.owes_of_awaits awaited) unowed
    rw [takings, untaken, Option.toList_none, List.nil_append]
    exact ih (sound.step event) (Nat.le_trans issued advances.tokens)
      fun owed => unowed (advances.owes t issued owed)

/-- A check that has its outcome at once is entered nowhere. -/
theorem takings_of_ready {r : Run} (sound : r.Sound) {request : Request} {o : Outcome}
    (ready : (r.client.submit request).1.state = .ready o) (since : List Event) :
    (r.step (.submit request)).2.takings r.client.ids.nextToken.1 since = [] := by
  refine takings_of_unowed (sound.step _) (issued_of_submit sound.client request) ?_ since
  have unowed : ¬ r.client.owes r.client.ids.nextToken.1 := fun owed =>
    Nat.not_succ_le_self _ (sound.client.issued_of_owes owed)
  cases r.client.submission request with
  | refused reason closed result =>
    show ¬ (r.client.submit request).2.2.owes _
    rw [result]
    exact unowed
  | decided running store cache all result =>
    show ¬ (r.client.submit request).2.2.owes _
    rw [result]
    exact unowed
  | enters running result =>
    rw [result] at ready
    cases ready

theorem starts_of_submit {r : Run} (sound : r.Sound) (request : Request) :
    (r.step (.submit request)).2.Starts r.client.ids.nextToken.1 (r.client.submit request).1.state := by
  intro call held
  simp only [step] at held
  rw [Table.get?_insert, (sound.client.submit request).1, if_pos rfl, Option.some.injEq] at held
  exact .inl (by rw [held])

/-- Where an answer told under `t` has what it says about actions that were not asked: it says
nothing if no result was taken in, and else what the one result says. -/
inductive Unasked (request : Request) (a : Answer) : List (BatchId × Answer) → Prop
  | silent (only : a.SpeaksOnlyOf request) : Unasked request a []
  | passed (b : BatchId) (answer : Answer)
    (same : ∀ name, ¬ request.AsksAbout name →
      a.decision? name = answer.decision? name ∧ a.isAllowed name = answer.isAllowed name) :
    Unasked request a [(b, answer)]

/-- An answer speaks only of its request exactly if the results that were taken in do. -/
theorem Unasked.speaksOnlyOf_iff {request : Request} {a : Answer} {taken : List (BatchId × Answer)}
    (h : Unasked request a taken) :
    a.SpeaksOnlyOf request ↔ ∀ result ∈ taken, result.2.SpeaksOnlyOf request := by
  cases h with
  | silent only => exact ⟨fun _ => nofun, fun _ => only⟩
  | passed b answer same =>
    rw [List.forall_mem_singleton]
    constructor <;> intro only name unasked
    · rw [← (same name unasked).1, ← (same name unasked).2]
      exact only name unasked
    · rw [(same name unasked).1, (same name unasked).2]
      exact only name unasked

/-- An answer told under a token, from the submission on that the token is issued at. -/
theorem unasked_since_submission {r : Run} (sound : r.Sound) {request : Request} {since : List Event}
    {a : Answer} (told : .outcome r.client.ids.nextToken.1 (.ok a) ∈
      ((r.step (.submit request)).2.after since).1) :
    Unasked request a ((r.step (.submit request)).2.takings r.client.ids.nextToken.1 since) := by
  have silent : ∀ o, (r.client.submit request).1.state = .ready o →
      Unasked request a ((r.step (.submit request)).2.takings r.client.ids.nextToken.1 since) := by
    intro o ready
    have nothing := takings_of_ready sound ready since
    rcases provenance_since_submission sound told with decides | ⟨w, answer, -, -, taken, -⟩
    · rw [nothing]
      exact .silent decides.speaksOnlyOf
    · rw [nothing] at taken
      cases taken
  obtain ⟨-, -, standing⟩ := sound.client.submit request
  cases standing with
  | refused reason closed state correlator => exact silent _ state
  | decided running store cache all state waiters => exact silent _ state
  | waits running b state waiter =>
    have starts := starts_of_submit sound request
    rw [state] at starts
    have waits : (r.step (.submit request)).2.client.correlator.waiters.get? _ = some _ := waiter
    obtain ⟨answer, taken, rfl⟩ := taken_of_shown (sound.step _) waits starts told
    rw [taken]
    refine .passed b answer fun name unasked => ?_
    have same := Answer.decision?_merge_of_unasked answer
      (fun _ _ => Client.mem_actions_of_prefill (c := r.client)) unasked
    exact ⟨same, Answer.isAllowed_congr same⟩

/-- **About an action that was not asked an answer says what its result says.**  What comes off
the wire speaks only of a request if and only if the entry does, or complains.  An answer told
under a token goes back to a request; if the cache decided everything it speaks only of that
request, and else it says about any other action what the one result says that was taken in for
the token.  So it speaks only of its request if and only if the results taken in for it do. -/
theorem unasked_only_from_result {config : Config} {horizon : Instant} {r₀ : Run} (started : start config horizon = .ok r₀) :
    (∀ (e : Wire.ResultEntry) (request : Request), (Answer.ofEntry e).SpeaksOnlyOf request ↔
      e.validationErrors ≠ [] ∨ ∀ name effect, e.effect? name = some effect → request.AsksAbout name) ∧
    ∀ (events : List Event) (t : Token) (a : Answer), .outcome t (.ok a) ∈ (r₀.after events).1 →
      ∃ before request since, events = before ++ .submit request :: since ∧
        .issued t ∈ ((r₀.after before).2.step (.submit request)).1 ∧
        Unasked request a (r₀.takings t events) ∧
        (a.SpeaksOnlyOf request ↔ ∀ result ∈ r₀.takings t events, result.2.SpeaksOnlyOf request) := by
  refine ⟨Answer.speaksOnlyOf_ofEntry_iff, ?_⟩
  intro events t a shown
  have sound₀ := start_sound_run started
  have new : r₀.client.ids.tokens < t.number := by
    have pos := pos_of_shown sound₀ shown
    rw [((start_eq_ok_iff config horizon r₀).1 started).2]
    exact pos
  obtain ⟨before, request, since, split, rfl, none, told⟩ := submission_of_shown sound₀ new shown
  have sound := sound₀.after before
  have unasked := unasked_since_submission sound told
  have takings : r₀.takings (r₀.after before).2.client.ids.nextToken.1 events =
      ((r₀.after before).2.step (.submit request)).2.takings
        (r₀.after before).2.client.ids.nextToken.1 since := by
    rw [split, takings_append, none, Run.takings, takesIn?_submit]
    rfl
  rw [takings]
  refine ⟨before, request, since, split, ?_, unasked, unasked.speaksOnlyOf_iff⟩
  simp only [step]
  rw [(sound.client.submit request).1]
  exact List.mem_cons_self ..

def revise : Action := ⟨"revise", by decide⟩

/-- A check for viewing is answered with decisions on viewing and on revising. -/
def answeredTooMuch : List Event :=
  [.submit mayAliceView, .due ⟨1⟩ true, .connected ⟨1⟩ (.ok ()),
    .reply ⟨1⟩ (.result ⟨1⟩ (.ofDecisions [(view, .allow), (revise, .allow)])), .poll ⟨1⟩]

/-- The revising is passed on with its result. -/
theorem revising_passed_on :
    start { maxBatchSize := 1 } .horizon = .ok (fresh { maxBatchSize := 1 } .horizon) ∧
      .outcome ⟨1⟩ (.ok (.ofDecisions [(view, .allow), (revise, .allow)])) ∈
        ((fresh { maxBatchSize := 1 } .horizon).after answeredTooMuch).1 ∧
      ∃ before request since, answeredTooMuch = before ++ .submit request :: since ∧
        .issued ⟨1⟩ ∈ (((fresh { maxBatchSize := 1 } .horizon).after before).2.step (.submit request)).1 ∧
        Unasked request (.ofDecisions [(view, .allow), (revise, .allow)])
          ((fresh { maxBatchSize := 1 } .horizon).takings ⟨1⟩ answeredTooMuch) := by
  have started : start { maxBatchSize := 1 } .horizon = .ok (fresh { maxBatchSize := 1 } .horizon) := by rfl
  have shown : .outcome ⟨1⟩ (.ok (.ofDecisions [(view, .allow), (revise, .allow)])) ∈
      ((fresh { maxBatchSize := 1 } .horizon).after answeredTooMuch).1 :=
    List.mem_of_getLast? (by rfl)
  obtain ⟨before, request, since, split, issued, unasked, -⟩ :=
    (unasked_only_from_result started).2 _ _ _ shown
  exact ⟨started, shown, before, request, since, split, issued, unasked⟩

/-- An answer may allow an action that its request does not ask about. -/
theorem unasked_told :
    ¬ ∀ config r₀ before request since t a, start config .horizon = .ok r₀ →
      .issued t ∈ ((r₀.after before).2.step (.submit request)).1 →
      .outcome t (.ok a) ∈ (r₀.after (before ++ .submit request :: since)).1 → a.SpeaksOnlyOf request := by
  intro only
  have silent := only { maxBatchSize := 1 } (fresh { maxBatchSize := 1 } .horizon) [] mayAliceView
    (answeredTooMuch.drop 1) ⟨1⟩ (.ofDecisions [(view, .allow), (revise, .allow)]) (by rfl)
    (List.mem_of_head? (by rfl)) (List.mem_of_getLast? (by rfl))
  have allowed : (Answer.ofDecisions [(view, .allow), (revise, .allow)]).isAllowed "revise" = true := by decide
  rw [(silent "revise" (by decide)).2] at allowed
  cases allowed

end Run

end PolicyClient
