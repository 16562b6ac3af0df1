/-
# PolicyClient.Proofs.Rehearsal.Following -- every rehearsal is a run

Whatever acts on a stage, its client moves by events alone: the run of the stage before
leads to the run of the stage after by some history (`Run.LeadsTo`).  Waking tasks,
setting alarms, reading streams and noting what is seen leave the run where it is; each
task, each millisecond and each step is a history.

So what the reports of a rehearsal tell of the client is what a run from the start comes to
(`Stage.rehearsal_told`), and whatever holds after every history holds of a rehearsal.
-/
import PolicyClient.Proofs.Run.History
import PolicyClient.Rehearsal.Session

namespace PolicyClient

set_option autoImplicit false

/-- Some history leads from one run to the other. -/
def Run.LeadsTo (r r' : Run) : Prop := ∃ events, (r.after events).2 = r'

namespace Run.LeadsTo

theorem refl (r : Run) : r.LeadsTo r := ⟨[], rfl⟩

theorem trans {r r' r'' : Run} (first : r.LeadsTo r') (later : r'.LeadsTo r'') : r.LeadsTo r'' := by
  obtain ⟨before, rfl⟩ := first
  obtain ⟨after, rfl⟩ := later
  exact ⟨before ++ after, by rw [after_append]⟩

theorem step (r : Run) (event : Event) : r.LeadsTo (r.step event).2 := ⟨[event], rfl⟩

end Run.LeadsTo

namespace Rehearsal

/-- What a report tells of the client is what `r` has come to. -/
structure Report.Tells (report : Report) (r : Run) : Prop where
  now : report.now = r.client.now
  client : ∀ state stats published, report.client = some (state, stats, published) →
    state = r.client.lifecycle.state ∧ stats = r.client.stats

namespace Stage

/-! ## What leaves the run alone

What only puts tasks or alarms in their places does so by definition. -/

@[simp] theorem run_wake (s : Stage) (t : Task) : (s.wake t).run = s.run := by
  unfold wake
  split <;> rfl

@[simp] theorem run_trace (s : Stage) (t : Trace) : (s.trace t).run = s.run := by
  cases t with
  | call batch timeout =>
    simp only [trace]
    split <;> rfl
  | remoteCall call instanceName => rfl

/-- What each step of a fold leaves alone, the fold leaves alone. -/
theorem run_foldl {α : Type} {f : Stage → α → Stage} (same : ∀ s a, (f s a).run = s.run)
    (l : List α) (s : Stage) : (l.foldl f s).run = s.run := by
  induction l generalizing s with
  | nil => rfl
  | cons a l ih => rw [List.foldl_cons, ih, same]

@[simp] theorem run_carryOut (s : Stage) (e : Effect) : (s.carryOut e).run = s.run := by
  cases e with
  | timer b | spawned b => exact run_wake ..
  | connect b =>
    simp only [carryOut]
    split <;> rfl
  | send batch => exact run_foldl run_trace ..

@[simp] theorem run_wakeCallers (s : Stage) : s.wakeCallers.run = s.run := by
  refine run_foldl (fun s entry => ?_) ..
  dsimp only
  split
  · split
    · exact run_wake ..
    · rfl
  · split
    · exact run_wake ..
    · rfl
  · rfl

/-! ## Tasks -/

/-- An event, and that nobody holds the client any more if that is so. -/
theorem perform_leads (s : Stage) (e : Event) : s.run.LeadsTo (s.perform e).2.run := by
  simp only [perform, run_wakeCallers]
  have happened := Run.LeadsTo.step s.run e
  split
  · rw [run_foldl fun s o => by cases o <;> simp]
    exact happened.trans (.step _ .abandon)
  · rwa [run_foldl fun s o => by cases o <;> simp]

theorem act_leads (s : Stage) (e : Event) : s.run.LeadsTo (s.act e).run := s.perform_leads e

theorem release_leads (s : Stage) : s.run.LeadsTo s.release.run := by
  unfold release
  split
  · exact s.act_leads _
  · exact .refl _

theorem retire_leads (s : Stage) (number : Nat) : s.run.LeadsTo (s.retire number).run :=
  release_leads ({ s with callers := s.callers.set number .finished }.setAlarms (.caller number) [])

theorem conclude_leads (s : Stage) (number : Nat) (outcome : CallerOutcome) :
    s.run.LeadsTo (s.conclude number outcome).run :=
  (s.see (.done number outcome)).retire_leads number

theorem runFlushTimer_leads (s : Stage) (b : BatchId) : s.run.LeadsTo (s.runFlushTimer b).run := by
  unfold runFlushTimer
  split
  · exact .refl _
  · split
    · exact s.act_leads _
    · split
      · exact s.act_leads _
      · exact .refl _

theorem readStream_leads (s : Stage) (b : BatchId) (deadline : Instant) :
    s.run.LeadsTo (s.readStream b deadline).run := by
  -- With nothing to be read, whatever else may wake the task.
  have suspended (task : Task) (alarms : List Instant) :
      s.run.LeadsTo (if deadline ≤ s.now then (s.act (.deadline b)).resume task
        else s.setAlarms task alarms).run := by
    split
    · exact s.act_leads _
    · exact .refl _
  simp only [readStream]
  split
  · split
    · exact .refl _
    · exact suspended ..
  · split
    · exact s.act_leads _
    · exact suspended ..
    · exact .refl _
    · exact act_leads { s.keepStream b _ with peer := _ } _

theorem runDispatch_leads (s : Stage) (b : BatchId) : s.run.LeadsTo (s.runDispatch b).run := by
  unfold runDispatch
  dsimp only
  split
  · exact .refl _
  · split
    · exact s.act_leads _
    · split
      · exact s.act_leads _
      · exact .refl _
    · exact s.readStream_leads b _
    · split
      · exact .refl _
      · split
        · exact act_leads { s with connections := s.connections.filter fun e => e.batch ≠ b } _
        · exact .refl _

theorem runCaller_leads (s : Stage) (number : Nat) : s.run.LeadsTo (s.runCaller number).run := by
  unfold runCaller
  split
  · rename_i token view patience _ _
    have polled := s.perform_leads (.poll token)
    split
    rename_i seen s' eq
    rw [eq] at polled
    -- An outcome has come, the caller waits no longer than its patience allows, or it waits on.
    split
    · exact polled.trans (conclude_leads ..)
    · split
      · dsimp only
        split
        · exact (polled.trans (perform_leads ..)).trans (conclude_leads ..)
        · exact polled.trans (perform_leads ..)
      · exact polled
    · exact polled
  · exact conclude_leads ..
  · split
    · exact .refl _
    · dsimp only
      split
      · exact perform_leads ..
      · exact s.perform_leads _
  · exact .refl _

theorem runTask_leads (s : Stage) (t : Task) : s.run.LeadsTo (s.runTask t).run := by
  cases t with
  | flushTimer b => exact s.runFlushTimer_leads b
  | dispatch b => exact s.runDispatch_leads b
  | caller number => exact s.runCaller_leads number

theorem settle_leads (fuel : Nat) (s : Stage) : s.run.LeadsTo (s.settle fuel).run := by
  induction fuel generalizing s with
  | zero => exact .refl _
  | succ fuel ih =>
    unfold settle
    split
    · exact .refl _
    · rename_i t rest _
      exact (runTask_leads { s with queue := rest } t).trans (ih _)

/-! ## Time and steps -/

/-- A millisecond is a history that begins with the passing of that time. -/
theorem tick_leads (s : Stage) :
    (s.run.step (.elapse (.ofMilliseconds 1))).2.LeadsTo s.tick.run := by
  have settled (l : List Task) (alarms : List Alarm) (s : Stage) :
      s.run.LeadsTo ((l.foldl wake { s with alarms }).settle instantFuel).run := by
    have leads := settle_leads instantFuel (l.foldl wake { s with alarms })
    rwa [run_foldl run_wake] at leads
  exact settled _ _ { s with run := (s.run.step (.elapse (.ofMilliseconds 1))).2 }

theorem advance_leads (n : Nat) (s : Stage) : s.run.LeadsTo (s.advance n).run := by
  induction n generalizing s with
  | zero => exact .refl _
  | succ n ih => exact ((Run.LeadsTo.step ..).trans s.tick_leads).trans (ih _)

theorem ask_leads (s : Stage) (request : Request) : s.run.LeadsTo (s.ask request).2.run :=
  s.perform_leads (.submit request)

theorem askAndWait_leads (s : Stage) (request : Except Error Request) (view : View)
    (timeout : Option Duration) : s.run.LeadsTo (s.askAndWait request view timeout).run := by
  cases request with
  | error e => exact .refl _
  | ok request => exact s.ask_leads request

/-- What each step of a fold leads to, the fold leads to. -/
theorem foldl_leads {α : Type} {f : Stage → α → Stage} (leads : ∀ (s : Stage) a, s.run.LeadsTo (f s a).run)
    (l : List α) (s : Stage) : s.run.LeadsTo (l.foldl f s).run := by
  induction l generalizing s with
  | nil => exact .refl _
  | cons a l ih => exact (leads s a).trans (ih _)

theorem begin_leads (s : Stage) (step : Step) : s.run.LeadsTo (s.begin step).2.run := by
  have ifHeld {s' : Stage} (leads : s.run.LeadsTo s'.run) :
      s.run.LeadsTo (if s.held then s' else s).run := by
    split
    · exact leads
    · exact .refl _
  cases step with
  | refused e | debug | debugTransport | isHealthy => exact .refl _
  | check request =>
    simp only [begin]
    split
    · exact s.ask_leads request
    · exact .refl _
  | buildCheck request timeout | isAllowed request action => exact ifHeld (s.askAndWait_leads ..)
  | checkResources inquiry => exact ifHeld (.refl _)
  | wait caller timeout =>
    simp only [begin]
    split
    · simpa using Run.LeadsTo.refl s.run
    · exact .refl _
  | cancel caller =>
    simp only [begin]
    split
    · exact s.perform_leads (.cancel _)
    · exact .refl _
  | drop caller =>
    simp only [begin]
    split
    · exact (s.act_leads _).trans (retire_leads ..)
    · exact (foldl_leads (fun s t => s.act_leads (.drop t)) _ s).trans (retire_leads ..)
    · exact .refl _
  | flush | close => exact ifHeld (s.act_leads _)
  | dropClient => exact ifHeld (release_leads { s with held := false })
  | setHealthy healthy =>
    simp only [begin]
    split <;> exact .refl _
  | link up =>
    simp only [begin]
    split
    · split
      · exact s.act_leads _
      · exact .refl _
    · exact .refl _
  | advance n => exact s.advance_leads n

theorem step_leads (s : Stage) (step : Step) : s.run.LeadsTo (s.step step).2.run :=
  ((s.begin_leads step).trans (settle_leads ..)).trans (.step _ _)

/-! ## Reports -/

theorem step_tells (s : Stage) (step : Step) : (s.step step).1.Tells (s.step step).2.run := by
  refine ⟨rfl, fun state stats published told => ?_⟩
  simp only [Stage.step, report] at told ⊢
  split at told
  · cases told
    exact ⟨rfl, rfl⟩
  · cases told

/-- Every report of steps done in turn tells of a run that a history leads to. -/
theorem steps_told (s : Stage) (todo : List Step) :
    ∀ report ∈ s.steps todo, ∃ events, report.Tells (s.run.after events).2 := by
  induction todo generalizing s with
  | nil => simp [steps]
  | cons first rest ih =>
    obtain ⟨before, reached⟩ := s.step_leads first
    intro report member
    rw [steps, List.mem_cons] at member
    obtain rfl | member := member
    · exact ⟨before, reached ▸ s.step_tells first⟩
    · obtain ⟨events, tells⟩ := ih _ report member
      rw [← reached] at tells
      exact ⟨before ++ events, by rwa [Run.after_append]⟩

/-- A stage is set up with a run from the start. -/
theorem setUp_starts {config : Config} {peer : Peer} {s : Stage} (ready : setUp config peer = .ok s) :
    Run.start config .horizon = .ok s.run := by
  have begun {s : Stage} (ready : (Run.start config .horizon >>= fun run =>
      pure { run, peer }) = Except.ok s) : Run.start config .horizon = .ok s.run := by
    obtain ⟨run, started, ready⟩ := ok_of_bind ready
    cases ready
    exact started
  simp only [setUp] at ready
  split at ready
  · split at ready
    · obtain ⟨_, -, ready⟩ := ok_of_bind ready
      exact begun ready
    · exact begun ready
  · exact begun ready

/-- Every report of a rehearsal tells of the run of its client from the start. -/
theorem rehearsal_told {config : Config} {peer : Peer} {s : Stage}
    (ready : setUp config peer = .ok s) (todo : List Step) :
    ∃ r₀, Run.start config .horizon = .ok r₀ ∧
      ∀ report ∈ s.steps todo, ∃ events, report.Tells (r₀.after events).2 :=
  ⟨s.run, setUp_starts ready, s.steps_told todo⟩

end Stage

end Rehearsal

end PolicyClient
