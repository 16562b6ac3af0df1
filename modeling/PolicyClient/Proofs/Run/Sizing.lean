/-
# PolicyClient.Proofs.Run.Sizing -- how large the calls of a batch are

Every batch of more than one request is within the limit on its size, as its requests are
estimated (`Client.Sized`): a request that would make the open batch too large finds it left,
and whatever a dispatch goes on with is some of what has departed.

The estimates leave out the framing of the calls (`Remote.length_questions_call`), so the limit
holds of the messages in the calls of a batch, all of them together, and a call may be longer by
its framing (`calls_sized`).  It may be too long: one request by itself always is longer than its
estimate, and two that are large, of an asker with a short name, are sent in a call that is longer
than the limit (`estimates_exceeded`).
-/
import PolicyClient.Proofs.Remote.Estimate
import PolicyClient.Proofs.Remote.Grouping
import PolicyClient.Proofs.Run.Resending

namespace PolicyClient

set_option autoImplicit false

open Remote (call ShareAsker)

/-! ## Within the limit -/

/-- The items are estimated within the limit, if there is more than one. -/
def FitsIn (limit : Nat) (items : List Item) : Prop := totalSize items ≤ limit ∨ items.length ≤ 1

theorem FitsIn.sublist {limit : Nat} {items fewer : List Item} (fits : FitsIn limit items)
    (sub : fewer.Sublist items) : FitsIn limit fewer := by
  obtain within | single := fits
  · left
    rw [totalSize_eq_sum] at within ⊢
    exact Nat.le_trans ((sub.map _).sum_le_sum fun _ _ => Nat.zero_le _) within
  · right
    exact Nat.le_trans sub.length_le single

namespace Client

/-- The batch that is being filled and those under way are within the limit. -/
structure Sized (c : Client) : Prop where
  counted : c.openBatch.bytes = totalSize c.openBatch.items
  filling : FitsIn c.config.maxBatchBytes c.openBatch.items
  leaving : ∀ d ∈ c.dispatches, FitsIn c.config.maxBatchBytes d.items

variable {c c' : Client}

namespace Sized

/-- The rest of a client does not matter. -/
theorem congr (h : c.Sized) (config : c'.config = c.config) (openBatch : c'.openBatch = c.openBatch)
    (dispatches : c'.dispatches = c.dispatches) : c'.Sized := by
  refine ⟨?_, ?_, ?_⟩
  · rw [openBatch]
    exact h.counted
  · rw [config, openBatch]
    exact h.filling
  · rw [config, dispatches]
    exact h.leaving

/-! ## Filling batches -/

theorem departure (h : c.Sized) : c.departure.2.Sized where
  counted := rfl
  filling := .inr (Nat.zero_le 1)
  leaving d member := by
    rcases List.mem_append.1 member with before | new
    · exact h.leaving d before
    · rw [List.mem_singleton.1 new]
      exact h.filling

theorem flush (h : c.Sized) : c.flush.2.Sized := by
  unfold Client.flush
  split
  · exact h
  · exact h.departure

theorem onFlushTimer (h : c.Sized) (b : BatchId) : (c.onFlushTimer b).2.Sized := by
  have ran : Sized { c with timers := c.timers.filter fun t => t.batch ≠ b } := h.congr rfl rfl rfl
  simp only [Client.onFlushTimer]
  split
  · exact ran.flush
  · exact ran

/-- A request joins a batch that has room for it, or is empty. -/
theorem joined (h : c.Sized) (t : Token) (request : Request) (prefill : Prefill)
    (room : c.openBatch.overflows request.estimatedSize c.config.maxBatchBytes = false) :
    (c.joined t request prefill).Sized := by
  have counted : c.openBatch.bytes + request.estimatedSize =
      totalSize (c.openBatch.items ++ [⟨t, request⟩]) := by
    rw [h.counted]
    simp [totalSize]
  refine ⟨counted, ?_, h.leaving⟩
  simp only [OpenBatch.overflows, Bool.and_eq_false_iff, Bool.not_eq_false', List.isEmpty_iff,
    decide_eq_false_iff_not, Nat.not_lt] at room
  obtain empty | fits := room
  · right
    simp [Client.joined, OpenBatch.add, empty]
  · left
    exact counted ▸ fits

theorem enqueue (h : c.Sized) (t : Token) (request : Request) (prefill : Prefill) :
    (c.enqueue t request prefill).2.2.Sized := by
  obtain ⟨before, c₁, after, c₂, makes, entry, result⟩ := c.enqueue_cases t request prefill
  rw [result]
  have joined : (c₁.joined t request prefill).Sized := by
    cases makes with
    | stays fits => exact h.joined t request prefill fits
    | leaves => exact h.departure.joined t request prefill rfl
  cases entry with
  | fills => exact joined.departure
  | opens => exact joined.congr rfl rfl rfl
  | joins => exact joined

theorem submit (h : c.Sized) (request : Request) : (c.submit request).2.2.Sized := by
  have consulted : (c.consulted request).Sized := h.congr rfl rfl rfl
  cases c.submission request with
  | refused reason closed result =>
    rw [result]
    exact h.congr rfl rfl rfl
  | decided running store cache all result =>
    rw [result]
    exact consulted.congr rfl rfl rfl
  | enters running result =>
    rw [result]
    exact consulted.enqueue _ _ _

theorem close (h : c.Sized) : c.close.2.Sized := by
  have closed : (c.closeWith "closed by caller" (.sessionClosed "closed by caller")).Sized := by
    unfold Client.closeWith
    split
    · exact h.congr rfl rfl rfl
    · exact h
  exact closed.flush

/-! ## Seeing batches through -/

/-- What a dispatch goes on with has been under way. -/
theorem goesOn {event : Event} (h : c.Sized) (config : c'.config = c.config)
    (openBatch : c'.openBatch = c.openBatch)
    (moves : ∀ d' ∈ c'.dispatches, d' ∈ c.dispatches ∨ ∃ d ∈ c.dispatches, Moves c event d d') :
    c'.Sized where
  counted := by
    rw [openBatch]
    exact h.counted
  filling := by
    rw [config, openBatch]
    exact h.filling
  leaving d' member := by
    rw [config]
    rcases moves d' member with before | ⟨d, before, moved⟩
    · exact h.leaving d' before
    · exact (h.leaving d before).sublist moved.items

end Sized

end Client

namespace Run

/-! ## Every run -/

theorem sized_step {r : Run} (sound : r.client.Sound) (h : r.client.Sized) (event : Event) :
    (r.step event).2.client.Sized := by
  have goesOn : ¬ event.Fills → (r.step event).2.client.Sized := by
    intro other
    have through := r.step_seesThrough other
    exact h.goesOn through.config through.openBatch fun d' => step_moves sound other
  cases event with
  | startTimer b => exact h.congr rfl rfl rfl
  | submit request => exact h.submit request
  | flush => exact h.flush
  | close => exact h.close
  | flushTimer b =>
    simp only [step]
    split
    · exact h.onFlushTimer b
    · exact h
  | _ => exact goesOn id

variable {config : Config} {horizon : Instant}

theorem sized_after (config : Config) (horizon : Instant) (events : List Event) : ((fresh config horizon).after events).2.client.Sized := by
  induction events using List.reverseRecOn with
  | nil => exact ⟨rfl, .inr (Nat.zero_le 1), nofun⟩
  | append_singleton events event ih =>
    rw [after_snoc]
    exact sized_step (sound_after (fresh_sound config horizon) events) ih event

/-- What is handed to the transport has departed, and was within the limit when it did. -/
theorem fitsIn_of_sent {events : List Event} {batch : Batch}
    (sent : .effect (.send batch) ∈ ((fresh config horizon).after events).1) :
    FitsIn config.maxBatchBytes batch.items := by
  have member := (mem_handed_iff batch.id batch _).2 ⟨sent, rfl⟩
  obtain ⟨before, event, since, -, d, under, -, -, held⟩ := departed_of_handed member
  rw [← after_snoc] at under
  have fits := (sized_after config horizon (before ++ [event])).leaving d under
  rw [config_after] at fits
  exact fits.sublist held

/-- **How large calls are.**  The questions of a call for requests of one asker are within their
estimates exactly if the framing of the call, which no estimate counts, takes no more than the asker
counted again for every request but the first; and that is so if the requests are two or more and small.
Of a batch of more than one request that is sent in any run, the limit holds of the messages in its calls,
all of them together, and a call may be longer by its framing. -/
theorem calls_sized {r₀ : Run} (started : start config horizon = .ok r₀) {events : List Event} {batch : Batch}
    (sent : .effect (.send batch) ∈ (r₀.after events).1) :
    (∀ id first rest, ShareAsker first rest →
      ((call id first rest).questions.length ≤ totalSize (first :: rest) ↔
          (call id first rest).framing ≤ rest.length * first.request.askerSize) ∧
        (rest ≠ [] → (∃ d, Principal.ofDraft d = .ok first.request.principal) →
          (∀ i ∈ first :: rest, i.request.toEntry.encode.length < 128) →
          (call id first rest).questions.length ≤ totalSize (first :: rest))) ∧
    (1 < batch.items.length →
      ((Remote.calls batch).map fun c => c.call.contentSize).sum ≤ config.maxBatchBytes ∧
        ∀ c ∈ Remote.calls batch, c.call.questions.length ≤ config.maxBatchBytes + c.call.framing) := by
  obtain ⟨-, rfl⟩ := (start_eq_ok_iff config horizon r₀).1 started
  constructor
  · exact fun id first rest share => Remote.questions_sized share id
  · intro several
    have within : totalSize batch.items ≤ config.maxBatchBytes := by
      obtain within | single := fitsIn_of_sent sent
      · exact within
      · omega
    have together := Nat.le_trans (Remote.contentSize_calls batch) within
    refine ⟨together, fun c member => ?_⟩
    have content := List.single_le_sum (fun _ _ => Nat.zero_le _) _
      (List.mem_map_of_mem (f := fun c : Remote.GroupCall => c.call.contentSize) member)
    rw [Wire.CheckCall.length_questions]
    omega

/-- May bob, of whom there is little to say, scan a document? -/
def bobScans (document : String) : Request where
  principal := ⟨"b", .ofList [("r", ())], .empty, none, none⟩
  resource := ⟨"document", document, .empty, none, none⟩
  actions := [⟨"scan", by decide⟩]
  auxData := none

/-- A name of 128 letters. -/
def longName : String := String.ofList (List.replicate 128 'x')

/-- Bob asks twice, and the second request fills the batch. -/
def bobTwice (document : String) : List Event :=
  [.submit (bobScans document), .submit (bobScans document), .due ⟨1⟩ true, .connected ⟨1⟩ (.ok ())]

/-- About a document with a short name the estimates are enough. -/
theorem bobTwice_sized :
    (call "1-0" ⟨⟨1⟩, bobScans "1"⟩ [⟨⟨2⟩, bobScans "1"⟩]).questions.length ≤
        totalSize [⟨⟨1⟩, bobScans "1"⟩, ⟨⟨2⟩, bobScans "1"⟩] ∧
      start { maxBatchSize := 2 } .horizon = .ok (fresh { maxBatchSize := 2 } .horizon) ∧
      ∃ batch, .effect (.send batch) ∈ ((fresh { maxBatchSize := 2 } .horizon).after (bobTwice "1")).1 ∧
        1 < batch.items.length ∧
        ∀ c ∈ Remote.calls batch, c.call.questions.length ≤ 524288 + c.call.framing := by
  have share : ShareAsker ⟨⟨1⟩, bobScans "1"⟩ [⟨⟨2⟩, bobScans "1"⟩] := by
    simp [ShareAsker, bobScans]
  have made : Principal.ofDraft { id := "b", roles := .ofList [("r", ())] } = .ok (bobScans "1").principal := by
    rfl
  have small : ∀ i ∈ [(⟨⟨1⟩, bobScans "1"⟩ : Item), ⟨⟨2⟩, bobScans "1"⟩],
      i.request.toEntry.encode.length < 128 := by
    simp only [List.forall_mem_cons]
    exact ⟨by decide +kernel, by decide +kernel, List.forall_mem_nil _⟩
  have started : start { maxBatchSize := 2 } .horizon = .ok (fresh { maxBatchSize := 2 } .horizon) := by rfl
  have sent : (handed ⟨1⟩ ((fresh { maxBatchSize := 2 } .horizon).after (bobTwice "1")).1).map
      (fun batch => batch.items.length) = [2] := by decide +kernel
  obtain ⟨batch, rest, all, two, -⟩ := List.map_eq_cons_iff.1 sent
  have shown := ((mem_handed_iff ⟨1⟩ batch _).1 (all ▸ List.mem_cons_self ..)).1
  have several : 1 < batch.items.length := by omega
  have sized := calls_sized started shown
  have fits := (sized.1 "1-0" _ _ share).2 (List.cons_ne_nil _ _) ⟨_, made⟩ small
  exact ⟨fits, started, batch, shown, several, (sized.2 several).2⟩

/-- **The estimates are no bound**: one request by itself is longer, and two about a document with a
long name are sent in a call that is longer than the limit. -/
theorem estimates_exceeded :
    (¬ ∀ id first rest, ShareAsker first rest →
      (call id first rest).questions.length ≤ totalSize (first :: rest)) ∧
    ¬ ∀ config r₀, start config .horizon = .ok r₀ → ∀ events batch, .effect (.send batch) ∈ (r₀.after events).1 →
      1 < batch.items.length → ∀ c ∈ Remote.calls batch, c.call.questions.length ≤ config.maxBatchBytes := by
  constructor
  · intro bounds
    have lone := Remote.lone_exceeds "1-0" ⟨⟨1⟩, bobScans "1"⟩
    exact Nat.not_le.2 lone (bounds "1-0" ⟨⟨1⟩, bobScans "1"⟩ [] nofun)
  · intro bounds
    have started : start { maxBatchBytes := 312 } .horizon = .ok (fresh { maxBatchBytes := 312 } .horizon) := by rfl
    have sent : (handed ⟨1⟩ ((fresh { maxBatchBytes := 312 } .horizon).after (bobTwice longName)).1).map
        (fun batch => (batch.items.length, (Remote.calls batch).map fun c => c.call.questions.length)) =
        [(2, [314])] := by decide +kernel
    obtain ⟨batch, rest, all, lengths, -⟩ := List.map_eq_cons_iff.1 sent
    obtain ⟨two, one⟩ := Prod.mk.inj lengths
    obtain ⟨c, others, alone, long, -⟩ := List.map_eq_cons_iff.1 one
    have shown := ((mem_handed_iff ⟨1⟩ batch _).1 (all ▸ List.mem_cons_self ..)).1
    have bound := bounds _ _ started _ batch shown (by omega) c (alone ▸ List.mem_cons_self ..)
    simp only at bound
    omega

end Run

end PolicyClient
