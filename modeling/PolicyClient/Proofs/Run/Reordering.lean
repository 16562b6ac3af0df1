/-
# PolicyClient.Proofs.Run.Reordering -- answers may come in any order

Two histories that begin with the same attempt and bring the same replies, in any order and at any
time, lead to the same: every call finds the same in its slot, the same requests are put off in the
same order, and as many violations are counted (`Run.reply_order_irrelevant`).  This needs that no
token of the batch is named twice, that no error is fatal, and that both streams are read to the
end.  Only the error that the attempt fails with, if it does, may be another one.
-/
import PolicyClient.Proofs.Attempt.Order
import PolicyClient.Proofs.Run.Attempts
import PolicyClient.Proofs.Run.Custody

namespace PolicyClient

set_option autoImplicit false

open Exchange (named)

/-- No token is in two places of a batch under way. -/
theorem Client.Sound.items_nodup {c : Client} (h : c.Sound) {d : Dispatch} (member : d ∈ c.dispatches) :
    (named d.items).Nodup := by
  have distinct := h.distinct
  rw [holdings, List.map_append, List.map_flatMap] at distinct
  have each := (List.nodup_flatMap.1 (List.nodup_append.1 distinct).2.1).1 d member
  simpa [Function.comp_def] using each

namespace Run

variable {config : Config} {horizon : Instant} {d : Dispatch} {deadline : Instant} {events events' : List Event}

/-- **The order of replies is of no account.**  If the replies that come are the same but for their
order, none is fatal, no token of the batch is named twice, and both streams are read to the end,
then every call finds the same, the same calls wait, as many violations are counted, and the same
requests are put off, in the same order. -/
theorem reply_order_irrelevant {r₀ r : Run} (started : start config horizon = .ok r₀) {history : List Event}
    (reached : (r₀.after history).2 = r) (found : r.client.dispatch? d.id = some d)
    (phase : d.phase = .reading deadline { unanswered := named d.items })
    (reads : ∀ event ∈ events, event.ReadsOn d.id) (reads' : ∀ event ∈ events', event.ReadsOn d.id)
    (perm : (repliesIn events).Perm (repliesIn events'))
    (lasting : ∀ reply ∈ repliesIn events, reply.fatal? = none)
    (once : ∀ t ∈ named d.items, ((repliesIn events).flatMap Reply.tokens).count t ≤ 1) :
    ∃ asked asked' n rest ending ending',
      r.after (events ++ [.streamEnd d.id]) = ([], { r with
        client := Client.concluded { r.client with now := (r.after events).2.client.now }
          d asked n ending }) ∧
      r.after (events' ++ [.streamEnd d.id]) = ([], { r with
        client := Client.concluded { r.client with now := (r.after events').2.client.now }
          d asked' n ending' }) ∧
      (∀ call : Call, call.poll (asked.foldl Settlement.perform r.client.correlator) =
        call.poll (asked'.foldl Settlement.perform r.client.correlator)) ∧
      (∀ t, (asked.foldl Settlement.perform r.client.correlator).isLive t =
        (asked'.foldl Settlement.perform r.client.correlator).isLive t) ∧
      PutsOff rest ending ∧ PutsOff rest ending' := by
  obtain ⟨-, rfl⟩ := (start_eq_ok_iff config horizon r₀).1 started
  have sound : r.client.Sound := reached ▸ sound_after (fresh_sound config horizon) history
  have distinct := sound.items_nodup (Client.Sound.mem_of_dispatch? found).1
  have lasting' : ∀ reply ∈ repliesIn events', reply.fatal? = none := fun reply member =>
    lasting reply (perm.mem_iff.2 member)
  have reworded : (words (repliesIn events)).Perm (words (repliesIn events')) := perm.flatMap_right _
  rw [← map_fst_words] at once
  obtain ⟨ending, off, ends⟩ := after_stop found phase reads lasting .streamEnd nofun
  obtain ⟨ending', off', ends'⟩ := after_stop found phase reads' lasting' .streamEnd nofun
  -- The same is to be settled, in another order, and the same put off.
  have asked := ledger_perm_of_perm reworded once distinct .streamEnd
  have nodup := (List.nodup_append.1
    ((accounted_ledger distinct .streamEnd (words (repliesIn events))).split.nodup_iff.2 distinct)).1
  have settles := foldl_perform_settles sound.coherent
    (ledger (named d.items) .streamEnd (words (repliesIn events)))
  have settles' := foldl_perform_settles sound.coherent
    (ledger (named d.items) .streamEnd (words (repliesIn events')))
  rw [← leaves_eq_of_perm asked nodup] at settles'
  have kept : (d.items.filter fun i => (fate .streamEnd (words (repliesIn events')) i.token).isDeferred) =
      d.items.filter fun i => (fate .streamEnd (words (repliesIn events)) i.token).isDeferred :=
    List.filter_congr fun i member => by
      rw [fate_eq_of_perm reworded once .streamEnd (List.mem_map_of_mem member)]
  rw [← violations_eq_of_perm perm once] at ends'
  rw [kept] at off'
  refine ⟨_, _, _, _, ending, ending', ends, ends', ?_, ?_, off, off'⟩
  · exact Call.poll_congr (settles.readMail_eq settles')
  · exact settles.isLive_eq settles'

/-- The replies to three checks: two are to be tried again, each for an error of its own. -/
def inOrder : List Event :=
  [.reply ⟨1⟩ (.failed [⟨1⟩] (.status .unavailable "busy")), .reply ⟨1⟩ (.result ⟨2⟩ {}),
    .reply ⟨1⟩ (.failed [⟨9⟩, ⟨3⟩] (.transport "reset"))]

/-- The same replies, the last one first and the first one late. -/
def outOfOrder : List Event :=
  [.reply ⟨1⟩ (.failed [⟨9⟩, ⟨3⟩] (.transport "reset")), .reply ⟨1⟩ (.result ⟨2⟩ {}),
    .elapse (.ofMilliseconds 600), .reply ⟨1⟩ (.failed [⟨1⟩] (.status .unavailable "busy"))]

/-- Both attempts put the same off, for whatever error. -/
theorem out_of_order_irrelevant :
    ∃ r d deadline, r = ((fresh { maxBatchSize := 3 } .horizon).after threeSent).2 ∧
      r.client.dispatch? d.id = some d ∧ d.phase = .reading deadline { unanswered := named d.items } ∧
      (∀ event ∈ inOrder, event.ReadsOn d.id) ∧ (∀ event ∈ outOfOrder, event.ReadsOn d.id) ∧
      (repliesIn inOrder).Perm (repliesIn outOfOrder) ∧
      (∀ reply ∈ repliesIn inOrder, reply.fatal? = none) ∧
      (∀ t ∈ named d.items, ((repliesIn inOrder).flatMap Reply.tokens).count t ≤ 1) ∧
      ∃ asked asked' n rest ending ending',
        r.after (inOrder ++ [.streamEnd d.id]) = ([], { r with
          client := Client.concluded { r.client with now := (r.after inOrder).2.client.now }
            d asked n ending }) ∧
        r.after (outOfOrder ++ [.streamEnd d.id]) = ([], { r with
          client := Client.concluded { r.client with now := (r.after outOfOrder).2.client.now }
            d asked' n ending' }) ∧
        PutsOff rest ending ∧ PutsOff rest ending' := by
  have started : start { maxBatchSize := 3 } .horizon = .ok (fresh { maxBatchSize := 3 } .horizon) := by rfl
  generalize same : ((fresh { maxBatchSize := 3 } .horizon).after threeSent).2 = r
  have opened : r.opens ⟨1⟩ = true := by rw [← same]; decide +kernel
  obtain ⟨d, deadline, id, found, phase⟩ := exists_of_opens opened
  have reads : ∀ event ∈ inOrder, event.ReadsOn d.id := by simp [inOrder, Event.ReadsOn, id]
  have reads' : ∀ event ∈ outOfOrder, event.ReadsOn d.id := by simp [outOfOrder, Event.ReadsOn, id]
  have perm : (repliesIn inOrder).Perm (repliesIn outOfOrder) :=
    (List.reverse_perm (repliesIn inOrder)).symm
  have lasting : ∀ reply ∈ repliesIn inOrder, reply.fatal? = none := by decide
  have once : ∀ t ∈ named d.items, ((repliesIn inOrder).flatMap Reply.tokens).count t ≤ 1 := fun t _ =>
    List.nodup_iff_count_le_one.1 (by decide) t
  obtain ⟨asked, asked', n, rest, ending, ending', ends, ends', -, -, off, off'⟩ :=
    reply_order_irrelevant started same found phase reads reads' perm lasting once
  exact ⟨r, d, deadline, rfl, found, phase, reads, reads', perm, lasting, once,
    asked, asked', n, rest, ending, ending', ends, ends', off, off'⟩

end Run

end PolicyClient
