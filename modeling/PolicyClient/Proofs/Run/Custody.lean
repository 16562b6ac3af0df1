/-
# PolicyClient.Proofs.Run.Custody -- no check is orphaned

In every run, whatever callers, transport and time do and in whatever order, each check
that waits is held once: by the open batch, or by one batch under way, and by the batch it
is registered under (`Run.waiting_held_once`).  Once a batch is no longer under way nothing
waits under it.  The only exception is a batch whose dispatch broke off.
-/
import PolicyClient.Proofs.Client.Custody
import PolicyClient.Proofs.Correlator.Handle
import PolicyClient.Proofs.Run.History

namespace PolicyClient

set_option autoImplicit false

open Client (Lapses Carries)

/-- Events that bring no check and no result, and leave the cache alone. -/
def Event.Plain : Event → Prop
  | .submit _ => False
  | .reply _ (.result _ _) => False
  | .age _ => False
  | _ => True

namespace Run

/-! ## One event -/

/-- A plain event lets checks end without an answer, at most. -/
theorem step_lapses {r : Run} (h : r.client.Sound) {event : Event} (plain : event.Plain) :
    Lapses r.client (r.step event).2.client := by
  cases event with
  | submit request => exact plain.elim
  | age d => exact plain.elim
  | poll t =>
    simp only [step]
    split
    · exact h.refl
    · split <;> exact h.refl
  | cancel t =>
    simp only [step]
    split
    · exact h.refl
    · exact h.lapse (Call.cancel_fails h.coherent _)
  | drop t =>
    simp only [step]
    split
    · exact h.refl
    · exact h.lapse (Call.drop_fails h.coherent _)
  | expire t after =>
    simp only [step]
    split
    · exact h.refl
    · exact h.lapse (Call.expire_fails h.coherent _ after)
  | flush => exact h.flush
  | abandon => exact h.abandon
  | close => exact h.close
  | link up => exact h.onLink up
  | flushTimer b =>
    simp only [step]
    split
    · exact h.onFlushTimer b
    · exact h.refl
  | due b healthy => exact h.onDue b healthy
  | connected b result => exact h.onConnect b result
  | reply b reply =>
    refine h.onReply_lapses b fun t answer result => ?_
    rw [result] at plain
    exact plain
  | streamEnd b => exact h.onStreamEnd b
  | deadline b => exact h.onDeadline b
  | startTimer b => exact h.aside rfl rfl rfl rfl rfl (.refl _)
  | draw share => exact h.aside rfl rfl rfl rfl rfl (.refl _)
  | elapse d => exact h.aside rfl rfl rfl rfl rfl (.refl _)

/-- **Every event keeps custody**, and no batch id comes back. -/
theorem step_sound {r : Run} (h : r.client.Sound) (event : Event) :
    (r.step event).2.client.Sound ∧ r.client.ids.batches ≤ (r.step event).2.client.ids.batches := by
  by_cases plain : event.Plain
  · have lapses := step_lapses h plain
    exact ⟨lapses.sound, lapses.batches⟩
  · cases event with
    | submit request =>
      have submits := (h.submit request).2.1
      exact ⟨submits.sound, submits.batches⟩
    | age d => exact ⟨h.with_cache _, Nat.le_refl _⟩
    | reply b reply =>
      have carries := h.onReply b reply
      exact ⟨carries.sound, carries.batches⟩
    | _ => exact absurd trivial plain

/-! ## Every run -/

theorem fresh_sound (config : Config) (horizon : Instant) : (fresh config horizon).client.Sound := by
  refine ⟨Correlator.coherent_of_empty rfl rfl, .nil, nofun, ?_, rfl, nofun, .nil, nofun, ?_,
    nofun, nofun, nofun⟩
  · intro t w found
    simp [fresh] at found
  · intro t w found
    simp [fresh] at found

theorem start_sound {config : Config} {horizon : Instant} {r : Run} (started : start config horizon = .ok r) : r.client.Sound := by
  rw [((start_eq_ok_iff config horizon r).1 started).2]
  exact fresh_sound config horizon

theorem sound_after {r : Run} (h : r.client.Sound) (events : List Event) :
    (r.after events).2.client.Sound :=
  after_keeps (P := fun r => r.client.Sound) (fun _ event h => (step_sound h event).1) h events

theorem batches_after {r : Run} (h : r.client.Sound) (events : List Event) :
    r.client.ids.batches ≤ (r.after events).2.client.ids.batches := by
  induction events generalizing r with
  | nil => exact Nat.le_refl _
  | cons event events ih =>
    obtain ⟨sound, le⟩ := step_sound h event
    rw [after_cons]
    exact Nat.le_trans le (ih sound)

end Run

namespace Client

variable {c : Client}

/-- What is held under a token, with the multiplicity it is held with. -/
theorem Sound.holdings_filter (h : c.Sound) {t : Token} {b : BatchId} (held : (t, b) ∈ c.holdings) :
    c.holdings.filter (fun entry => entry.1 = t) = [(t, b)] := by
  have distinct := h.distinct
  revert held distinct
  generalize c.holdings = l
  intro held distinct
  induction l with
  | nil => cases held
  | cons entry l ih =>
    obtain ⟨absent, distinct⟩ := List.nodup_cons.1 distinct
    rcases List.mem_cons.1 held with rfl | held
    · have others : l.filter (fun entry => entry.1 = t) = [] := by
        refine List.filter_eq_nil_iff.2 fun entry member same => absent ?_
        exact List.mem_map.2 ⟨entry, member, by simpa using same⟩
      simp [others]
    · have other : entry.1 ≠ t := fun same => absent (same ▸ List.mem_map_of_mem held)
      rw [List.filter_cons_of_neg (by simpa using other)]
      exact ih held distinct

end Client

namespace Run

/-- **No check is orphaned.**  After every history a check that waits is held exactly once,
by the batch it is registered under; and a batch that was under way and is no longer has
nothing waiting under it.  Batches that broke off are excepted. -/
theorem waiting_held_once {config : Config} {horizon : Instant} {r₀ : Run} (started : start config horizon = .ok r₀)
    (events : List Event) :
    (∀ t w, (r₀.after events).2.client.correlator.waiters.get? t = some w →
      w.batch ∉ (r₀.after events).2.client.broken →
      (r₀.after events).2.client.holdings.filter (fun entry => entry.1 = t) = [(t, w.batch)]) ∧
    (∀ before since b, events = before ++ since →
      (r₀.after before).2.client.dispatch? b ≠ none → (r₀.after events).2.client.dispatch? b = none →
      b ∉ (r₀.after events).2.client.broken →
      ∀ t w, (r₀.after events).2.client.correlator.waiters.get? t = some w → w.batch ≠ b) := by
  have sound := sound_after (start_sound started) events
  refine ⟨?_, ?_⟩
  · intro t w found whole
    exact sound.holdings_filter ((sound.held t w found).resolve_left whole)
  · intro before since b split spawned finished whole t w found batch
    have earlier := sound_after (start_sound started) before
    have grown : (r₀.after before).2.client.ids.batches ≤ (r₀.after events).2.client.ids.batches := by
      rw [split, after_append]
      exact batches_after earlier since
    obtain ⟨d, under⟩ := Option.ne_none_iff_exists'.1 spawned
    obtain ⟨member, rfl⟩ := Client.Sound.mem_of_dispatch? under
    have held := (sound.held t w found).resolve_left (batch ▸ whole)
    rcases (Client.mem_holdings_iff _ t w.batch).1 held with ⟨-, same⟩ | ⟨d', member', -, same⟩
    · have number := earlier.earlier d member
      have latest := sound.latest
      rw [same, batch] at latest
      omega
    · have absent := List.find?_eq_none.1 finished d' member'
      simp [same, batch] at absent

/-- A reply that names the check of another batch takes it from nobody; the batch that got
the reply ends all the same, and leaves nothing behind. -/
theorem foreign_reply_takes_nothing :
    start { maxBatchSize := 1 } .horizon = .ok (fresh { maxBatchSize := 1 } .horizon) ∧
      ((fresh { maxBatchSize := 1 } .horizon).after [.submit mayAliceView, .submit mayAliceView,
        .due ⟨1⟩ true, .connected ⟨1⟩ (.ok ()), .reply ⟨1⟩ (.result ⟨2⟩ {}),
        .reply ⟨1⟩ (.result ⟨1⟩ {}), .streamEnd ⟨1⟩]).2.client.holdings.filter
          (fun entry => entry.1 = ⟨2⟩) = [(⟨2⟩, ⟨2⟩)] ∧
      ∀ t w, ((fresh { maxBatchSize := 1 } .horizon).after [.submit mayAliceView, .submit mayAliceView,
        .due ⟨1⟩ true, .connected ⟨1⟩ (.ok ()), .reply ⟨1⟩ (.result ⟨2⟩ {}),
        .reply ⟨1⟩ (.result ⟨1⟩ {}), .streamEnd ⟨1⟩]).2.client.correlator.waiters.get? t = some w →
          w.batch ≠ ⟨1⟩ := by
  have started : start { maxBatchSize := 1 } .horizon = .ok (fresh { maxBatchSize := 1 } .horizon) := by rfl
  obtain ⟨held, left⟩ := waiting_held_once started [.submit mayAliceView, .submit mayAliceView,
    .due ⟨1⟩ true, .connected ⟨1⟩ (.ok ()), .reply ⟨1⟩ (.result ⟨2⟩ {}),
    .reply ⟨1⟩ (.result ⟨1⟩ {}), .streamEnd ⟨1⟩]
  refine ⟨started, held ⟨2⟩ ⟨⟨2⟩, 1, {}⟩ (by rfl) (by decide +kernel), ?_⟩
  exact left [.submit mayAliceView, .submit mayAliceView, .due ⟨1⟩ true, .connected ⟨1⟩ (.ok ())] _
    ⟨1⟩ rfl (by decide +kernel) (by decide +kernel) (by decide +kernel)

end Run

end PolicyClient
