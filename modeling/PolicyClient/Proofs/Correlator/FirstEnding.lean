/-
# PolicyClient.Proofs.Correlator.FirstEnding -- a call is settled by the first act that ends it

A `Desk` is a correlator together with the handles of the calls that were registered with
it, and an `Act` is anything that can be done to either.  `Act.ending?` says which acts end
the wait of a call and how: a result or an error settles it, its caller withdraws it, waits
no longer or walks away.  `endingIn?` finds the first such act since the registration.

The main statement, `Desk.first_ending_settles`, ranges over every history of acts in which
no token is registered twice.  As long as no act has ended a call it waits and shows so in
every way (`Desk.Waits`).  The first act that ends it fixes what its caller gets
(`Desk.Offers`), and from then on nothing waits under its token (`Desk.Idle`): whatever is
done to it changes nothing, and it is not counted among the calls that are failed together.

The invariant is `Desk.Sound`: every call that waits has its handle in the caller's hands,
waiting at the call's own slot.  What a handle shows after the end is `Desk.Holds`.
-/
import PolicyClient.Proofs.Correlator.Handle

namespace PolicyClient

set_option autoImplicit false

/-! ## Acts and what they show -/

/-- What can be done to a correlator and to the calls registered with it. -/
inductive Act
  | register (t : Token) (b : BatchId) (prefill : Prefill)
  | resolve (t : Token) (answer : Answer)
  | fail (t : Token) (error : Error)
  | failBatch (b : BatchId) (error : Error)
  | failAll (error : Error)
  /-- A caller withdraws its check. -/
  | cancel (t : Token)
  /-- A caller has waited for `after` and waits no longer; its handle is used up. -/
  | expire (t : Token) (after : Duration)
  /-- A caller gives up its handle. -/
  | drop (t : Token)
  /-- A caller looks for the outcome of its check. -/
  | poll (t : Token)

/-- What an act shows to the one who does it. -/
inductive Reaction
  | nothing
  | resolution (r : Resolution)
  | answer (yes : Bool)
  | count (n : Nat)
  | pending
  | outcome (o : Outcome)

/-- A correlator and the handles of the calls registered with it. -/
structure Desk where
  correlator : Correlator
  calls : Table Token Call := .empty

namespace Desk

/-- One act. -/
def step (d : Desk) : Act → Reaction × Desk
  | .register t b prefill =>
    let (slot, correlator) := d.correlator.register t b prefill
    (.nothing, { correlator, calls := d.calls.insert t ⟨t, .waiting slot⟩ })
  | .resolve t answer =>
    let (resolution, correlator) := d.correlator.resolve t answer
    (.resolution resolution, { d with correlator })
  | .fail t error =>
    let (failed, correlator) := d.correlator.fail t error
    (.answer failed, { d with correlator })
  | .failBatch b error =>
    let (n, correlator) := d.correlator.failBatch b error
    (.count n, { d with correlator })
  | .failAll error =>
    let (n, correlator) := d.correlator.failAll error
    (.count n, { d with correlator })
  | .cancel t =>
    match d.calls.get? t with
    | none => (.nothing, d)
    | some call =>
      let (outstanding, call, correlator) := call.cancel d.correlator
      (.answer outstanding, { correlator, calls := d.calls.insert t call })
  | .expire t after =>
    match d.calls.get? t with
    | none => (.nothing, d)
    | some call =>
      let (outcome, _, correlator) := call.expire after d.correlator
      (.outcome outcome, { correlator, calls := d.calls.erase t })
  | .drop t =>
    match d.calls.get? t with
    | none => (.nothing, d)
    | some call => (.nothing, ⟨call.drop d.correlator, d.calls.erase t⟩)
  | .poll t =>
    match d.calls.get? t with
    | none => (.nothing, d)
    | some call =>
      match call.poll d.correlator with
      | (some outcome, call) => (.outcome outcome, { d with calls := d.calls.insert t call })
      | (none, _) => (.pending, d)

/-- What an act shows. -/
def shows (d : Desk) (act : Act) : Reaction := (d.step act).1

/-- The desk after a history of acts. -/
def after (d : Desk) (acts : List Act) : Desk := acts.foldl (fun d act => (d.step act).2) d

/-- Nothing is registered yet. -/
def start (cache : Option (DecisionStore Fingerprint)) : Desk := { correlator := { cache } }

@[simp] theorem after_nil (d : Desk) : d.after [] = d := rfl

theorem after_append (d : Desk) (acts more : List Act) :
    d.after (acts ++ more) = (d.after acts).after more := List.foldl_append

end Desk

/-! ## Endings -/

/-- How the wait of a call ends. -/
inductive Ending
  /-- The caller is to get this. -/
  | outcome (o : Outcome)
  /-- The caller has walked away. -/
  | givenUp

namespace Act

/-- How an act ends the wait of the call `t`, registered under `b` with `prefill`; none if
it leaves the call waiting. -/
def ending? (t : Token) (b : BatchId) (prefill : Prefill) : Act → Option Ending
  | resolve t' answer => if t' = t then some (.outcome (.ok (answer.merge prefill.decisions))) else none
  | fail t' error => if t' = t then some (.outcome (.error error)) else none
  | failBatch b' error => if b' = b then some (.outcome (.error error)) else none
  | failAll error => some (.outcome (.error error))
  | cancel t' => if t' = t then some (.outcome (.error .cancelled)) else none
  | expire t' _ => if t' = t then some .givenUp else none
  | drop t' => if t' = t then some .givenUp else none
  | register .. | poll _ => none

/-- The token that an act registers. -/
def registered? : Act → Option Token
  | register t _ _ => some t
  | _ => none

theorem eq_register {act : Act} {t : Token} (h : act.registered? = some t) :
    ∃ b prefill, act = .register t b prefill := by
  cases act with
  | register t' b prefill =>
    cases h
    exact ⟨b, prefill, rfl⟩
  | _ => cases h

/-- Whether an act may take the outcome of `t`, or the handle that would give it. -/
def consumes (t : Token) : Act → Bool
  | poll t' | expire t' _ | drop t' => t' = t
  | _ => false

end Act

/-- The tokens that a history registers. -/
def registered (history : List Act) : List Token := history.filterMap Act.registered?

/-- The first act that ends the wait of a call: how, and what comes after it. -/
def endingIn? (t : Token) (b : BatchId) (prefill : Prefill) :
    List Act → Option (Ending × List Act)
  | [] => none
  | act :: later =>
    match act.ending? t b prefill with
    | some e => some (e, later)
    | none => endingIn? t b prefill later

/-- The calls that a history leaves waiting, each with its batch. -/
def stillWaiting : List Act → List (Token × BatchId)
  | [] => []
  | .register t b prefill :: later =>
    if (endingIn? t b prefill later).isNone then (t, b) :: stillWaiting later else stillWaiting later
  | _ :: later => stillWaiting later

theorem endingIn?_snoc (t : Token) (b : BatchId) (prefill : Prefill) (since : List Act) (act : Act) :
    endingIn? t b prefill (since ++ [act]) =
      match endingIn? t b prefill since with
      | some (e, later) => some (e, later ++ [act])
      | none => (act.ending? t b prefill).map (·, []) := by
  induction since with
  | nil => cases h : act.ending? t b prefill <;> simp [endingIn?, h]
  | cons a since ih =>
    rw [List.cons_append, endingIn?, endingIn?]
    cases a.ending? t b prefill with
    | some e => rfl
    | none => exact ih

/-! ## What a call shows -/

namespace Desk

/-- The call `t` waits, and everything says so. -/
structure Waits (d : Desk) (t : Token) : Prop where
  live : d.correlator.isLive t = true
  poll : d.shows (.poll t) = .pending
  resolve : ∀ answer, d.shows (.resolve t answer) = .resolution .delivered
  fail : ∀ error, d.shows (.fail t error) = .answer true
  cancel : d.shows (.cancel t) = .answer true
  expire : ∀ after, d.shows (.expire t after) = .outcome (.error (.timeout after))

/-- No call waits under `t`, and nothing finds one. -/
structure Idle (d : Desk) (t : Token) : Prop where
  live : d.correlator.isLive t = false
  resolve : ∀ answer, d.shows (.resolve t answer) = .resolution .discarded
  fail : ∀ error, d.shows (.fail t error) = .answer false
  cancel : d.shows (.cancel t) ≠ .answer true

/-- The caller of `t` gets `o` as soon as it looks, and can no longer withdraw. -/
structure Offers (d : Desk) (t : Token) (o : Outcome) : Prop where
  poll : d.shows (.poll t) = .outcome o
  expire : ∀ after, d.shows (.expire t after) = .outcome o
  cancel : d.shows (.cancel t) = .answer false

/-! ## The invariant -/

/-- Every handle is kept under its token, and a call that waits has its handle waiting at
its slot. -/
structure Sound (d : Desk) : Prop where
  coherent : d.correlator.Coherent
  named : ∀ t call, d.calls.get? t = some call → call.token = t
  handled : ∀ t w, d.correlator.waiters.get? t = some w → d.calls.get? t = some ⟨t, .waiting w.slot⟩

theorem sound_start (cache : Option (DecisionStore Fingerprint)) : (start cache).Sound where
  coherent := Correlator.coherent_of_empty rfl rfl
  named t call h := by cases h
  handled t w h := by cases h

/-- What is left for a call that waits under `t` when an act takes it out. -/
def leaves : Act → Token → Waiter → Option Mail
  | .resolve t answer =>
    Correlator.only t fun w => .delivered (.ok (answer.merge w.prefill.decisions))
  | .fail t error => Correlator.only t fun _ => .delivered (.error error)
  | .failBatch b error => fun _ w => if w.batch = b then some (.delivered (.error error)) else none
  | .failAll error => fun _ _ => some (.delivered (.error error))
  | .cancel t | .expire t _ | .drop t => Correlator.only t fun _ => .abandoned
  | .register .. | .poll _ => fun _ _ => none

theorem Sound.fits {d : Desk} (h : d.Sound) {t : Token} {call : Call}
    (found : d.calls.get? t = some call) : call.Fits d.correlator := by
  intro w waits
  have name := h.named t call found
  rw [name] at waits
  have handled := h.handled t w waits
  rw [found, Option.some.injEq] at handled
  rw [handled]

theorem Sound.absent {d : Desk} (h : d.Sound) {t : Token} (unheld : d.calls.get? t = none) :
    d.correlator.waiters.get? t = none := by
  cases found : d.correlator.waiters.get? t with
  | none => rfl
  | some w =>
    have handled := h.handled t w found
    rw [unheld] at handled
    cases handled

/-- An act that registers nothing settles calls, each as `leaves` says. -/
theorem step_settles {d : Desk} (h : d.Sound) {act : Act} (other : act.registered? = none) :
    d.correlator.Settles (leaves act) (d.step act).2.correlator := by
  -- A caller without a handle can do nothing, and has no call that waits.
  have idle : ∀ {t : Token}, d.calls.get? t = none →
      d.correlator.Settles (Correlator.only t fun _ => .abandoned) d.correlator :=
    fun unheld => .of_none h.coherent (Correlator.only_of_absent (h.absent unheld) _)
  cases act with
  | register t b prefill => cases other
  | resolve t answer => exact Correlator.resolve_settles h.coherent t answer
  | fail t error => exact Correlator.fail_settles h.coherent t error
  | failBatch b error => exact Correlator.failBatch_settles h.coherent b error
  | failAll error => exact Correlator.failAll_settles h.coherent error
  | cancel t =>
    simp only [step, leaves]
    cases found : d.calls.get? t with
    | none => exact idle found
    | some call =>
      rw [← h.named t call found]
      exact Call.cancel_settles h.coherent (h.fits found)
  | expire t after =>
    simp only [step, leaves]
    cases found : d.calls.get? t with
    | none => exact idle found
    | some call =>
      rw [← h.named t call found]
      exact Call.expire_settles h.coherent (h.fits found) after
  | drop t =>
    simp only [step, leaves]
    cases found : d.calls.get? t with
    | none => exact idle found
    | some call =>
      rw [← h.named t call found]
      exact Call.drop_settles h.coherent (h.fits found)
  | poll t =>
    have same : (d.step (.poll t)).2.correlator = d.correlator := by
      simp only [step]
      split <;> try split
      all_goals rfl
    rw [same]
    exact .of_none h.coherent fun _ _ _ => rfl

theorem step_registers {d : Desk} (h : d.Sound) {t : Token} (b : BatchId) (prefill : Prefill)
    (free : d.correlator.waiters.get? t = none) :
    d.correlator.Registers t ⟨b, d.correlator.mail.length, prefill⟩
      (d.step (.register t b prefill)).2.correlator :=
  Correlator.register_registers h.coherent free b prefill

/-- An act that leaves a call waiting is one that does not end its wait. -/
theorem leaves_eq_none_iff (act : Act) (t : Token) (w : Waiter) :
    leaves act t w = none ↔ act.ending? t w.batch w.prefill = none := by
  cases act <;> simp [leaves, Act.ending?, Correlator.only, eq_comm]

/-- What is left for a call that ends otherwise than by its own caller. -/
theorem leaves_eq_delivered {act : Act} {t : Token} {w : Waiter} {o : Outcome}
    (ends : act.ending? t w.batch w.prefill = some (.outcome o)) (other : act ≠ .cancel t) :
    leaves act t w = some (.delivered o) := by
  cases act <;>
    simp_all [leaves, Act.ending?, Correlator.only, eq_comm]

/-- The handle of `t` changes only by an act on the handle of `t`. -/
theorem calls_step_of_ne {d : Desk} {act : Act} {t : Token} (registers : act.registered? ≠ some t)
    (consumes : act.consumes t = false) (cancels : act ≠ .cancel t) :
    (d.step act).2.calls.get? t = d.calls.get? t := by
  cases act with
  | register t' b prefill =>
    have ne : t ≠ t' := fun e => registers (by rw [e]; rfl)
    simp [step, Table.get?_insert, ne]
  | resolve | fail | failBatch | failAll => rfl
  | cancel t' =>
    have ne : t ≠ t' := fun e => cancels (by rw [e])
    simp only [step]
    cases d.calls.get? t' <;> simp [Table.get?_insert, ne]
  | expire t' after =>
    have ne : t ≠ t' := fun e => by simp [Act.consumes, e] at consumes
    simp only [step]
    cases d.calls.get? t' <;> simp [Table.get?_erase, ne]
  | drop t' =>
    have ne : t ≠ t' := fun e => by simp [Act.consumes, e] at consumes
    simp only [step]
    cases d.calls.get? t' <;> simp [Table.get?_erase, ne]
  | poll t' =>
    have ne : t ≠ t' := fun e => by simp [Act.consumes, e] at consumes
    simp only [step]
    split
    · rfl
    · split
      · simp [Table.get?_insert, ne]
      · rfl

/-- A handle stays under its own token. -/
theorem step_named {d : Desk} (h : d.Sound) (act : Act) (t : Token) (call : Call)
    (found : (d.step act).2.calls.get? t = some call) : call.token = t := by
  cases act with
  | register t' b prefill =>
    simp only [step, Table.get?_insert] at found
    by_cases e : t = t'
    · rw [if_pos e, Option.some.injEq] at found
      rw [← found, e]
    · rw [if_neg e] at found
      exact h.named t call found
  | resolve | fail | failBatch | failAll => exact h.named t call found
  | cancel t' =>
    simp only [step] at found
    cases held : d.calls.get? t' with
    | none =>
      rw [held] at found
      exact h.named t call found
    | some call' =>
      have name := h.named t' call' held
      simp only [held, Table.get?_insert] at found
      by_cases e : t = t'
      · rw [if_pos e, Option.some.injEq] at found
        rw [← found, e, ← name, Call.token_cancel]
      · rw [if_neg e] at found
        exact h.named t call found
  | expire t' after =>
    simp only [step] at found
    split at found
    · exact h.named t call found
    · by_cases e : t = t'
      · simp [Table.get?_erase, e] at found
      · exact h.named t call (by simpa [Table.get?_erase, e] using found)
  | drop t' =>
    simp only [step] at found
    split at found
    · exact h.named t call found
    · by_cases e : t = t'
      · simp [Table.get?_erase, e] at found
      · exact h.named t call (by simpa [Table.get?_erase, e] using found)
  | poll t' =>
    simp only [step] at found
    split at found
    · exact h.named t call found
    · rename_i call' held
      split at found
      · rename_i o call'' given
        have name := h.named t' call' held
        by_cases e : t = t'
        · rw [Table.get?_insert, if_pos e, Option.some.injEq] at found
          rw [← found, e, ← name, Call.token_poll given]
        · rw [Table.get?_insert, if_neg e] at found
          exact h.named t call found
      · exact h.named t call found

/-- A token that is registered must not wait already. -/
def Admits (d : Desk) (act : Act) : Prop :=
  ∀ t, act.registered? = some t → d.correlator.waiters.get? t = none

theorem step_coherent {d : Desk} (h : d.Sound) {act : Act} (admits : d.Admits act) :
    (d.step act).2.correlator.Coherent := by
  cases act with
  | register t b prefill => exact (step_registers h b prefill (admits t rfl)).coherent
  | _ => exact (step_settles h rfl).coherent

/-- A call that waits after an act waited before it, or has just been registered. -/
theorem waits_before_step {d : Desk} (h : d.Sound) {act : Act} (admits : d.Admits act) {t : Token}
    {w : Waiter} (found : (d.step act).2.correlator.waiters.get? t = some w)
    (other : act.registered? ≠ some t) :
    d.correlator.waiters.get? t = some w ∧ act.ending? t w.batch w.prefill = none := by
  cases act with
  | register t' b prefill =>
    have ne : t ≠ t' := fun e => other (by rw [e]; rfl)
    rw [(step_registers h b prefill (admits t' rfl)).waiting, if_neg ne] at found
    exact ⟨found, rfl⟩
  | _ =>
    obtain ⟨before, stays⟩ := ((step_settles h rfl).waits_iff t w).1 found
    exact ⟨before, (leaves_eq_none_iff _ t w).1 stays⟩

theorem step_poll_of_waiting {d : Desk} (h : d.Sound) {t : Token} {w : Waiter}
    (found : d.correlator.waiters.get? t = some w) : d.step (.poll t) = (.pending, d) := by
  have handled := h.handled t w found
  have polled := Call.poll_of_waiting (c := ⟨t, .waiting w.slot⟩) h.coherent (h.fits handled) found
  simp [step, handled, polled]

theorem step_sound {d : Desk} (h : d.Sound) {act : Act} (admits : d.Admits act) :
    (d.step act).2.Sound := by
  refine ⟨step_coherent h admits, step_named h act, ?_⟩
  intro t w found
  by_cases registers : act.registered? = some t
  · cases act with
    | register t' b prefill =>
      cases registers
      rw [(step_registers h b prefill (admits t rfl)).waiting, if_pos rfl, Option.some.injEq] at found
      rw [← found]
      simp [step, Table.get?_insert, Correlator.register_fst]
    | _ => cases registers
  · obtain ⟨before, stays⟩ := waits_before_step h admits found registers
    by_cases polls : act = .poll t
    · rw [polls, step_poll_of_waiting h before]
      exact h.handled t w before
    · rw [calls_step_of_ne registers]
      · exact h.handled t w before
      · cases act <;> simp_all [Act.consumes, Act.ending?, eq_comm]
      · rintro rfl
        simp [Act.ending?] at stays

/-! ## What a handle keeps -/

/-- The outcome of `t` is with its handle, or in a slot that no waiting call has. -/
def Keeps (d : Desk) (t : Token) (o : Outcome) : Prop :=
  d.calls.get? t = some ⟨t, .ready o⟩ ∨
    ∃ slot, d.calls.get? t = some ⟨t, .waiting slot⟩ ∧ d.correlator.readMail slot = .delivered o ∧
      slot < d.correlator.mail.length ∧ ∀ t' w, d.correlator.waiters.get? t' = some w → w.slot ≠ slot

/-- Where the call `t` stands after what has been done since its registration. -/
def Holds (d : Desk) (t : Token) (b : BatchId) (prefill : Prefill) (since : List Act) : Prop :=
  match endingIn? t b prefill since with
  | none => ∃ slot, d.correlator.waiters.get? t = some ⟨b, slot, prefill⟩
  | some (e, later) => d.correlator.waiters.get? t = none ∧
      ∀ o, e = .outcome o → (∀ act ∈ later, act.consumes t = false) → d.Keeps t o

/-- A slot that is in no call's use keeps what stands in it. -/
theorem readMail_step {d : Desk} (h : d.Sound) {act : Act} (admits : d.Admits act) {slot : Nat}
    (lt : slot < d.correlator.mail.length)
    (free : ∀ t w, d.correlator.waiters.get? t = some w → w.slot ≠ slot) :
    (d.step act).2.correlator.readMail slot = d.correlator.readMail slot ∧
      slot < (d.step act).2.correlator.mail.length ∧
      ∀ t w, (d.step act).2.correlator.waiters.get? t = some w → w.slot ≠ slot := by
  cases kind : act.registered? with
  | some t =>
    obtain ⟨b, prefill, rfl⟩ := Act.eq_register kind
    have new := step_registers h b prefill (admits t kind)
    refine ⟨new.kept slot lt, by rw [new.slots]; omega, ?_⟩
    intro t' w found
    rw [new.waiting] at found
    by_cases e : t' = t
    · rw [if_pos e, Option.some.injEq] at found
      have := new.fresh
      rw [← found]
      simp only
      omega
    · exact free t' w (by simpa [e] using found)
  | none =>
    have settled := step_settles h kind
    exact ⟨settled.kept slot fun t w found same => absurd same (free t w found),
      by rw [settled.slots]; exact lt,
      fun t w found => free t w ((settled.waits_iff t w).1 found).1⟩

/-- An act on another call or on the correlator leaves what a handle keeps. -/
theorem Keeps.step {d : Desk} (h : d.Sound) {act : Act} (admits : d.Admits act) {t : Token}
    {o : Outcome} (absent : d.correlator.waiters.get? t = none) (registers : act.registered? ≠ some t)
    (consumes : act.consumes t = false) (keeps : d.Keeps t o) : (d.step act).2.Keeps t o := by
  have calls : (d.step act).2.calls.get? t = d.calls.get? t := by
    by_cases cancels : act = .cancel t
    · rw [cancels]
      simp only [Desk.step]
      cases held : d.calls.get? t with
      | none => exact held
      | some call =>
        have name := h.named t call held
        simp [Call.cancel_of_absent (name ▸ absent), Table.get?_insert]
    · exact calls_step_of_ne registers consumes cancels
  rcases keeps with ready | ⟨slot, waiting, mail, lt, free⟩
  · exact .inl (calls.trans ready)
  · obtain ⟨kept, lt', free'⟩ := readMail_step h admits lt free
    exact .inr ⟨slot, calls.trans waiting, kept.trans mail, lt', free'⟩

/-- The act that ends the wait of a call leaves its outcome with the handle. -/
theorem keeps_of_ending {d : Desk} (h : d.Sound) {act : Act} {t : Token} {w : Waiter} {o : Outcome}
    (found : d.correlator.waiters.get? t = some w)
    (ends : act.ending? t w.batch w.prefill = some (.outcome o)) : (d.step act).2.Keeps t o := by
  have handled := h.handled t w found
  by_cases cancels : act = .cancel t
  · subst cancels
    simp only [Act.ending?, if_true, Option.some.injEq, Ending.outcome.injEq] at ends
    have fits : Call.Fits ⟨t, .waiting w.slot⟩ d.correlator := h.fits handled
    left
    simp [Desk.step, handled, Call.cancel_of_waiting fits found, Table.get?_insert, ends]
  · have other : act.registered? = none := by
      cases act <;> simp_all [Act.ending?, Act.registered?]
    have consumes : act.consumes t = false := by
      cases act <;> simp_all [Act.ending?, Act.consumes]
    have settled := step_settles h other
    have calls : (d.step act).2.calls.get? t = d.calls.get? t :=
      calls_step_of_ne (by rw [other]; simp) consumes cancels
    refine .inr ⟨w.slot, calls.trans handled,
      settled.posted t w _ found (leaves_eq_delivered ends cancels), ?_, ?_⟩
    · rw [settled.slots]
      exact h.coherent.slot_lt t w found
    · intro t' w' found' same
      obtain ⟨before, stays⟩ := (settled.waits_iff t' w').1 found'
      have eq := h.coherent.slot_inj t' w' t w before found same
      subst eq
      rw [found] at before
      cases before
      rw [leaves_eq_none_iff, ends] at stays
      cases stays

theorem Holds.step {d : Desk} (h : d.Sound) {act : Act} (admits : d.Admits act) {t : Token}
    {b : BatchId} {prefill : Prefill} {since : List Act} (registers : act.registered? ≠ some t)
    (holds : d.Holds t b prefill since) : (d.step act).2.Holds t b prefill (since ++ [act]) := by
  have gone : d.correlator.waiters.get? t = none → (d.step act).2.correlator.waiters.get? t = none := by
    intro absent
    cases found : (d.step act).2.correlator.waiters.get? t with
    | none => rfl
    | some w =>
      have before := (waits_before_step h admits found registers).1
      rw [absent] at before
      cases before
  unfold Holds at holds ⊢
  rw [endingIn?_snoc]
  cases ended : endingIn? t b prefill since with
  | some ending =>
    obtain ⟨e, later⟩ := ending
    simp only [ended] at holds ⊢
    refine ⟨gone holds.1, ?_⟩
    intro o outcome unread
    have keeps := holds.2 o outcome fun a member => unread a (List.mem_append_left _ member)
    exact keeps.step h admits holds.1 registers
      (unread act (List.mem_append_right _ (List.mem_singleton_self act)))
  | none =>
    simp only [ended] at holds
    obtain ⟨slot, found⟩ := holds
    cases ends : act.ending? t b prefill with
    | none =>
      refine ⟨slot, ?_⟩
      cases kind : act.registered? with
      | none =>
        exact ((step_settles h kind).waits_iff t _).2 ⟨found, (leaves_eq_none_iff act t _).2 ends⟩
      | some t' =>
        obtain ⟨b', prefill', rfl⟩ := Act.eq_register kind
        have ne : t ≠ t' := fun e => registers (e ▸ kind)
        rw [(step_registers h b' prefill' (admits t' kind)).waiting, if_neg ne]
        exact found
    | some e =>
      refine ⟨?_, ?_⟩
      · cases after : (d.step act).2.correlator.waiters.get? t with
        | none => rfl
        | some w =>
          obtain ⟨before, stays⟩ := waits_before_step h admits after registers
          rw [found] at before
          cases before
          rw [ends] at stays
          cases stays
      · intro o outcome _
        subst outcome
        exact keeps_of_ending h found ends

/-! ## Histories -/

/-- No act of a history registers a token that waits already or is registered twice. -/
structure Fresh (d : Desk) (acts : List Act) : Prop where
  nodup : (registered acts).Nodup
  free : ∀ t ∈ registered acts, d.correlator.waiters.get? t = none

theorem Fresh.admits {d : Desk} {act : Act} {acts : List Act} (h : d.Fresh (act :: acts)) :
    d.Admits act := fun t kind => h.free t (by simp [registered, kind])

theorem Fresh.step {d : Desk} (sound : d.Sound) {act : Act} {acts : List Act}
    (h : d.Fresh (act :: acts)) : (d.step act).2.Fresh acts := by
  have nodup : (act.registered?.toList ++ registered acts).Nodup := by
    have := h.nodup
    cases kind : act.registered? <;> simpa [registered, kind] using this
  obtain ⟨-, tail, disjoint⟩ := List.nodup_append.1 nodup
  refine ⟨tail, ?_⟩
  intro t member
  cases found : (d.step act).2.correlator.waiters.get? t with
  | none => rfl
  | some w =>
    have other : act.registered? ≠ some t := fun kind => disjoint t (by simp [kind]) t member rfl
    have before := (waits_before_step sound h.admits found other).1
    rw [h.free t (List.mem_filterMap.2 ?_)] at before
    · cases before
    · obtain ⟨a, ha, kind⟩ := List.mem_filterMap.1 member
      exact ⟨a, List.mem_cons_of_mem _ ha, kind⟩

theorem sound_after {d : Desk} (h : d.Sound) {acts : List Act} (fresh : d.Fresh acts) :
    (d.after acts).Sound := by
  induction acts generalizing d with
  | nil => exact h
  | cons act acts ih => exact ih (step_sound h fresh.admits) (fresh.step h)

theorem fresh_append {d : Desk} (h : d.Sound) {acts more : List Act} (fresh : d.Fresh (acts ++ more)) :
    d.Fresh acts ∧ (d.after acts).Fresh more := by
  induction acts generalizing d with
  | nil => exact ⟨⟨.nil, fun _ member => nomatch member⟩, fresh⟩
  | cons act acts ih =>
    refine ⟨⟨?_, fun t member => fresh.free t ?_⟩, (ih (step_sound h fresh.admits) (fresh.step h)).2⟩
    · have nodup := fresh.nodup
      rw [registered, List.filterMap_append] at nodup
      exact (List.nodup_append.1 nodup).1
    · rw [registered, List.filterMap_append]
      exact List.mem_append_left _ member

/-- Where a call stands is told by what has been done since its registration. -/
theorem holds_after {d : Desk} (h : d.Sound) {t : Token} {b : BatchId} {prefill : Prefill}
    {done acts : List Act} (fresh : d.Fresh acts) (unregistered : t ∉ registered acts)
    (holds : d.Holds t b prefill done) : (d.after acts).Holds t b prefill (done ++ acts) := by
  induction acts generalizing d done with
  | nil => simpa using holds
  | cons act acts ih =>
    have registers : act.registered? ≠ some t := fun kind => unregistered (by simp [registered, kind])
    have tail : t ∉ registered acts := fun member => unregistered (by
      obtain ⟨a, ha, kind⟩ := List.mem_filterMap.1 member
      exact List.mem_filterMap.2 ⟨a, List.mem_cons_of_mem _ ha, kind⟩)
    have next := ih (step_sound h fresh.admits) (fresh.step h) tail (holds.step h fresh.admits registers)
    rwa [List.append_assoc] at next

/-! ## What is shown -/

theorem Sound.waits {d : Desk} (h : d.Sound) {t : Token} {w : Waiter}
    (found : d.correlator.waiters.get? t = some w) : d.Waits t := by
  have live := (d.correlator.isLive_iff t).2 ⟨w, found⟩
  have handled := h.handled t w found
  have fits : Call.Fits ⟨t, .waiting w.slot⟩ d.correlator := h.fits handled
  refine ⟨live, ?_, ?_, ?_, ?_, ?_⟩
  · simp [shows, step_poll_of_waiting h found]
  · intro answer
    simp [shows, step, Correlator.resolve_of_waiting found]
  · intro error
    simp [shows, step, Correlator.fail_fst, live]
  · simp [shows, step, handled, Call.cancel_of_waiting fits found]
  · intro after
    simp [shows, step, handled, Call.expire_of_waiting h.coherent fits found]

theorem Sound.idle {d : Desk} (h : d.Sound) {t : Token} (absent : d.correlator.waiters.get? t = none) :
    d.Idle t := by
  have live := (d.correlator.isLive_eq_false_iff t).2 absent
  refine ⟨live, ?_, ?_, ?_⟩
  · intro answer
    simp [shows, step, Correlator.resolve_of_absent absent]
  · intro error
    simp [shows, step, Correlator.fail_fst, live]
  · simp only [shows, step]
    cases held : d.calls.get? t with
    | none => simp
    | some call => simp [Call.cancel_of_absent (h.named t call held ▸ absent)]

theorem Keeps.offers {d : Desk} {t : Token} {o : Outcome}
    (absent : d.correlator.waiters.get? t = none) (keeps : d.Keeps t o) : d.Offers t o := by
  rcases keeps with ready | ⟨slot, waiting, mail, -, -⟩
  · have polled : Call.poll ⟨t, .ready o⟩ d.correlator = (some o, ⟨t, .done⟩) := rfl
    refine ⟨?_, ?_, ?_⟩
    · simp [shows, Desk.step, ready, polled]
    · intro after
      simp [shows, Desk.step, ready, Call.expire_of_poll polled]
    · simp [shows, Desk.step, ready, Call.cancel_of_absent (c := ⟨t, .ready o⟩) absent]
  · have polled : Call.poll ⟨t, .waiting slot⟩ d.correlator = (some o, ⟨t, .done⟩) := by
      simp [Call.poll, mail]
    refine ⟨?_, ?_, ?_⟩
    · simp [shows, Desk.step, waiting, polled]
    · intro after
      simp [shows, Desk.step, waiting, Call.expire_of_poll polled]
    · simp [shows, Desk.step, waiting, Call.cancel_of_absent (c := ⟨t, .waiting slot⟩) absent]

/-! ## All histories -/

theorem fresh_start (cache : Option (DecisionStore Fingerprint)) {history : List Act}
    (nodup : (registered history).Nodup) : (start cache).Fresh history := ⟨nodup, fun _ _ => rfl⟩

theorem holds_history (cache : Option (DecisionStore Fingerprint)) {before since : List Act} {t : Token}
    {b : BatchId} {prefill : Prefill}
    (nodup : (registered (before ++ .register t b prefill :: since)).Nodup) :
    ((start cache).after (before ++ .register t b prefill :: since)).Holds t b prefill since := by
  obtain ⟨first, second⟩ := fresh_append (sound_start cache) (fresh_start cache nodup)
  have sound := sound_after (sound_start cache) first
  have unregistered : t ∉ registered since := by
    have : (t :: registered since).Nodup := second.nodup
    exact (List.nodup_cons.1 this).1
  rw [after_append]
  have waits : (((start cache).after before).step (.register t b prefill)).2.Holds t b prefill [] :=
    ⟨_, by rw [(step_registers sound b prefill (second.admits t rfl)).waiting, if_pos rfl]⟩
  exact holds_after (step_sound sound second.admits) (second.step sound) unregistered waits

theorem absent_of_unregistered (cache : Option (DecisionStore Fingerprint)) {history : List Act}
    (nodup : (registered history).Nodup) {t : Token} (unregistered : t ∉ registered history) :
    ((start cache).after history).correlator.waiters.get? t = none := by
  have goes : ∀ (acts : List Act) (d : Desk), d.Sound → d.Fresh acts → t ∉ registered acts →
      d.correlator.waiters.get? t = none → (d.after acts).correlator.waiters.get? t = none := by
    intro acts
    induction acts with
    | nil => exact fun _ _ _ _ absent => absent
    | cons act acts ih =>
      intro d sound fresh other absent
      rw [registered, List.mem_filterMap] at other
      refine ih _ (step_sound sound fresh.admits) (fresh.step sound) (fun member => other ?_) ?_
      · obtain ⟨a, ha, kind⟩ := List.mem_filterMap.1 member
        exact ⟨a, List.mem_cons_of_mem _ ha, kind⟩
      · cases found : (d.step act).2.correlator.waiters.get? t with
        | none => rfl
        | some w =>
          have kind : act.registered? ≠ some t := fun kind => other ⟨act, List.mem_cons_self .., kind⟩
          have before := (waits_before_step sound fresh.admits found kind).1
          rw [absent] at before
          cases before
  exact goes history _ (sound_start cache) (fresh_start cache nodup) unregistered rfl

theorem mem_stillWaiting_iff {history : List Act} {t : Token} {b : BatchId} :
    (t, b) ∈ stillWaiting history ↔ ∃ before prefill since,
      history = before ++ .register t b prefill :: since ∧ endingIn? t b prefill since = none := by
  induction history with
  | nil => simp [stillWaiting]
  | cons act later ih =>
    have shift : (∃ before prefill since, later = before ++ .register t b prefill :: since ∧
          endingIn? t b prefill since = none) →
        ∃ before prefill since, act :: later = before ++ .register t b prefill :: since ∧
          endingIn? t b prefill since = none := fun ⟨before, prefill, since, split, waits⟩ =>
      ⟨act :: before, prefill, since, by rw [split]; rfl, waits⟩
    have unshift : (∃ before prefill since, act :: later = before ++ .register t b prefill :: since ∧
          endingIn? t b prefill since = none) →
        (∃ prefill, act = .register t b prefill ∧ endingIn? t b prefill later = none) ∨
        ∃ before prefill since, later = before ++ .register t b prefill :: since ∧
          endingIn? t b prefill since = none := by
      rintro ⟨before, prefill, since, split, waits⟩
      cases before with
      | nil =>
        cases split
        exact .inl ⟨prefill, rfl, waits⟩
      | cons a before =>
        cases split
        exact .inr ⟨before, prefill, since, rfl, waits⟩
    cases act with
    | register t' b' prefill' =>
      simp only [stillWaiting]
      constructor
      · intro member
        cases waits : endingIn? t' b' prefill' later with
        | none =>
          simp only [waits, Option.isNone_none, if_true, List.mem_cons, Prod.mk.injEq] at member
          rcases member with ⟨rfl, rfl⟩ | member
          · exact ⟨[], prefill', later, rfl, waits⟩
          · exact shift (ih.1 member)
        | some e =>
          simp only [waits, Option.isNone_some, Bool.false_eq_true, if_false] at member
          exact shift (ih.1 member)
      · intro split
        rcases unshift split with ⟨prefill, same, waits⟩ | split
        · cases same
          simp [waits]
        · have member := ih.2 split
          split
          · exact List.mem_cons_of_mem _ member
          · exact member
    | _ =>
      simp only [stillWaiting]
      refine ih.trans ⟨shift, fun split => ?_⟩
      rcases unshift split with ⟨_, same, _⟩ | split
      · cases same
      · exact split

theorem stillWaiting_tokens_sublist (history : List Act) :
    ((stillWaiting history).map (·.1)).Sublist (registered history) := by
  induction history with
  | nil => exact .slnil
  | cons act later ih =>
    cases act with
    | register t b prefill =>
      simp only [stillWaiting, registered, List.filterMap_cons, Act.registered?]
      split
      · exact ih.cons_cons t
      · exact ih.cons t
    | _ => exact ih

/-- The calls that wait are those no act has ended. -/
theorem waits_iff_stillWaiting (cache : Option (DecisionStore Fingerprint)) {history : List Act}
    (nodup : (registered history).Nodup) (t : Token) (b : BatchId) :
    (t, b) ∈ stillWaiting history ↔
      ∃ w, ((start cache).after history).correlator.waiters.get? t = some w ∧ w.batch = b := by
  rw [mem_stillWaiting_iff]
  constructor
  · rintro ⟨before, prefill, since, rfl, waits⟩
    have holds := holds_history cache nodup
    simp only [Holds, waits] at holds
    obtain ⟨slot, found⟩ := holds
    exact ⟨_, found, rfl⟩
  · rintro ⟨w, found, rfl⟩
    by_cases member : t ∈ registered history
    · obtain ⟨act, ha, kind⟩ := List.mem_filterMap.1 member
      obtain ⟨b, prefill, rfl⟩ := Act.eq_register kind
      obtain ⟨before, since, rfl⟩ := List.append_of_mem ha
      have holds := holds_history cache nodup
      unfold Holds at holds
      cases ended : endingIn? t b prefill since with
      | none =>
        simp only [ended] at holds
        obtain ⟨slot, found'⟩ := holds
        rw [found] at found'
        cases found'
        exact ⟨before, prefill, since, rfl, ended⟩
      | some ending =>
        simp only [ended] at holds
        rw [found] at holds
        cases holds.1
    · rw [absent_of_unregistered cache nodup member] at found
      cases found

/-- **A call is settled by the first act that ends it.**  Over every history that registers
no token twice: until an act ends it, a call waits; the first act that ends it fixes what
its caller gets as soon as it looks; and from then on, as before its registration, nothing
waits under its token.  Calls that are failed together are those that still wait. -/
theorem first_ending_settles (cache : Option (DecisionStore Fingerprint)) {history : List Act}
    (nodup : (registered history).Nodup) :
    (∀ before t b prefill since, history = before ++ .register t b prefill :: since →
      match endingIn? t b prefill since with
      | none => ((start cache).after history).Waits t
      | some (ending, later) => ((start cache).after history).Idle t ∧
          ∀ o, ending = .outcome o → (∀ act ∈ later, act.consumes t = false) →
            ((start cache).after history).Offers t o) ∧
    (∀ t, t ∉ registered history → ((start cache).after history).Idle t) ∧
    (∀ b error, ((start cache).after history).shows (.failBatch b error) =
      .count ((stillWaiting history).countP fun entry => entry.2 = b)) ∧
    (∀ error, ((start cache).after history).shows (.failAll error) =
      .count (stillWaiting history).length) := by
  have sound := sound_after (sound_start cache) (fresh_start cache nodup)
  have distinct := nodup.sublist (stillWaiting_tokens_sublist history)
  refine ⟨?_, ?_, ?_, ?_⟩
  · intro before t b prefill since split
    subst split
    have holds := holds_history cache nodup
    unfold Holds at holds
    cases ended : endingIn? t b prefill since with
    | none =>
      simp only [ended] at holds
      obtain ⟨slot, found⟩ := holds
      exact sound.waits found
    | some ending =>
      simp only [ended] at holds
      exact ⟨sound.idle holds.1, fun o outcome unread => (holds.2 o outcome unread).offers holds.1⟩
  · intro t unregistered
    exact sound.idle (absent_of_unregistered cache nodup unregistered)
  · intro b error
    exact congrArg Reaction.count
      (Correlator.failBatch_fst sound.coherent distinct (waits_iff_stillWaiting cache nodup) b error)
  · intro error
    refine congrArg Reaction.count ((Correlator.failAll_fst sound.coherent error).trans ?_)
    rw [Table.size_eq_length_of_mem_iff _ distinct fun t => ?_, List.length_map]
    simp only [List.mem_map, Prod.exists, exists_and_right, exists_eq_right,
      waits_iff_stillWaiting cache nodup]
    exact ⟨fun ⟨_, w, found, _⟩ => ⟨w, found⟩, fun ⟨w, found⟩ => ⟨w.batch, w, found, rfl⟩⟩

/-- A check is withdrawn, and its result comes after all: the caller hears that it was
withdrawn, and the other check of the batch still waits. -/
theorem withdrawal_before_result :
    (registered [.register ⟨1⟩ ⟨1⟩ {}, .register ⟨2⟩ ⟨1⟩ {}, .cancel ⟨1⟩, .resolve ⟨1⟩ {}]).Nodup ∧
    ((start none).after [.register ⟨1⟩ ⟨1⟩ {}, .register ⟨2⟩ ⟨1⟩ {}, .cancel ⟨1⟩,
      .resolve ⟨1⟩ {}]).Offers ⟨1⟩ (.error .cancelled) ∧
    ((start none).after [.register ⟨1⟩ ⟨1⟩ {}, .register ⟨2⟩ ⟨1⟩ {}, .cancel ⟨1⟩,
      .resolve ⟨1⟩ {}]).Waits ⟨2⟩ := by
  have nodup : (registered [.register ⟨1⟩ ⟨1⟩ {}, .register ⟨2⟩ ⟨1⟩ {}, .cancel ⟨1⟩,
    .resolve ⟨1⟩ {}]).Nodup := by decide
  have settled := (first_ending_settles none nodup).1
  exact ⟨nodup, (settled [] ⟨1⟩ ⟨1⟩ {} _ rfl).2 _ rfl (by decide),
    settled [.register ⟨1⟩ ⟨1⟩ {}] ⟨2⟩ ⟨1⟩ {} _ rfl⟩

end Desk

end PolicyClient
