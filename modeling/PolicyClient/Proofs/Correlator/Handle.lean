/-
# PolicyClient.Proofs.Correlator.Handle -- what a caller's handle does to the correlator

A handle touches the correlator in one way only: it may take out its own call and abandon
it.  `Call.Fits` says that the handle waits at the slot of its call as long as the call
waits; then withdrawing, waiting no longer and walking away each settle that call and no
other (`Call.cancel_settles`, `Call.expire_settles`, `Call.drop_settles`), and after the
end they leave the correlator alone.
-/
import PolicyClient.Call
import PolicyClient.Proofs.Correlator.Failing

namespace PolicyClient

set_option autoImplicit false

/-- What a caller reads from a slot; nothing as long as the outcome is awaited. -/
def Mail.outcome? : Mail → Option Outcome
  | .awaited => none
  | .delivered o => some o
  | .abandoned => some (.error .cancelled)

namespace Call

/-- As long as the call waits, its handle waits at the call's slot. -/
def Fits (c : Call) (k : Correlator) : Prop :=
  ∀ w, k.waiters.get? c.token = some w → c.state = .waiting w.slot

variable {c : Call} {k : Correlator}

theorem token_poll {o : Option Outcome} {c' : Call} (h : c.poll k = (o, c')) : c'.token = c.token := by
  unfold poll at h
  split at h
  · cases h; rfl
  · cases h; rfl
  · split at h <;> cases h <;> rfl

theorem token_cancel (c : Call) (k : Correlator) : (c.cancel k).2.1.token = c.token := by
  unfold cancel
  split
  · split <;> rfl
  · rfl

theorem token_expire (c : Call) (after : Duration) (k : Correlator) :
    (c.expire after k).2.1.token = c.token := by
  unfold expire
  split
  · rename_i polled
    exact token_poll polled
  · rename_i polled
    have token := token_poll polled
    exact token

/-- A handle that has nothing to give stays as it is. -/
theorem poll_pending {c' : Call} (h : c.poll k = (none, c')) : c' = c := by
  unfold poll at h
  split at h
  · cases h
  · cases h
  · split at h
    · cases h; rfl
    · cases h
    · cases h

/-! ## While the call waits -/

theorem poll_of_waiting (coherent : k.Coherent) (fits : c.Fits k) {w : Waiter}
    (found : k.waiters.get? c.token = some w) : c.poll k = (none, c) := by
  simp [poll, fits w found, coherent.awaited _ w found]

/-- What is left in the slot of a handle is what the handle gives. -/
theorem poll_of_left {slot : Nat} {o : Outcome} (waiting : c.state = .waiting slot)
    (left : (k.readMail slot).outcome? = some o) : c.poll k = (some o, { c with state := .done }) := by
  simp only [poll, waiting]
  cases mail : k.readMail slot <;> rw [mail] at left <;> cases left <;> rfl

theorem cancel_of_waiting (fits : c.Fits k) {w : Waiter} (found : k.waiters.get? c.token = some w) :
    c.cancel k = (true, { c with state := .ready (.error .cancelled) }, (k.cancel c.token).2) := by
  simp [cancel, fits w found, Correlator.cancel_of_waiting found]

theorem drop_of_waiting (fits : c.Fits k) {w : Waiter} (found : k.waiters.get? c.token = some w) :
    c.drop k = (k.cancel c.token).2 := by
  simp [drop, fits w found]

theorem expire_of_waiting (coherent : k.Coherent) (fits : c.Fits k) {w : Waiter}
    (found : k.waiters.get? c.token = some w) (after : Duration) :
    c.expire after k = (.error (.timeout after), { c with state := .done }, (k.cancel c.token).2) := by
  simp [expire, poll_of_waiting coherent fits found, cancel_of_waiting fits found]

/-! ## After the end -/

theorem cancel_of_absent (absent : k.waiters.get? c.token = none) : c.cancel k = (false, c, k) := by
  unfold cancel
  split
  · simp [Correlator.cancel_of_absent absent]
  · rfl

theorem drop_of_absent (absent : k.waiters.get? c.token = none) : c.drop k = k := by
  unfold drop
  split
  · simp [Correlator.cancel_of_absent absent]
  · rfl

theorem expire_of_poll {o : Outcome} {c' : Call} (given : c.poll k = (some o, c')) (after : Duration) :
    c.expire after k = (o, c', k) := by
  simp [expire, given]

theorem expire_of_absent (absent : k.waiters.get? c.token = none) (after : Duration) :
    (c.expire after k).2.2 = k := by
  unfold expire
  split
  · rfl
  · rename_i c' pending
    simp only [poll_pending pending, cancel_of_absent absent]

/-! ## Settling -/

theorem cancel_settles (coherent : k.Coherent) (fits : c.Fits k) :
    k.Settles (Correlator.only c.token fun _ => .abandoned) (c.cancel k).2.2 := by
  cases found : k.waiters.get? c.token with
  | none =>
    rw [cancel_of_absent found]
    exact .of_none coherent (Correlator.only_of_absent found _)
  | some w =>
    rw [cancel_of_waiting fits found]
    exact Correlator.cancel_settles coherent c.token

theorem drop_settles (coherent : k.Coherent) (fits : c.Fits k) :
    k.Settles (Correlator.only c.token fun _ => .abandoned) (c.drop k) := by
  cases found : k.waiters.get? c.token with
  | none =>
    rw [drop_of_absent found]
    exact .of_none coherent (Correlator.only_of_absent found _)
  | some w =>
    rw [drop_of_waiting fits found]
    exact Correlator.cancel_settles coherent c.token

theorem expire_settles (coherent : k.Coherent) (fits : c.Fits k) (after : Duration) :
    k.Settles (Correlator.only c.token fun _ => .abandoned) (c.expire after k).2.2 := by
  cases found : k.waiters.get? c.token with
  | none =>
    rw [expire_of_absent found]
    exact .of_none coherent (Correlator.only_of_absent found _)
  | some w =>
    rw [expire_of_waiting coherent fits found]
    exact Correlator.cancel_settles coherent c.token

/-! ## Failing -/

theorem cancel_fails (coherent : k.Coherent) (c : Call) : k.Fails (c.cancel k).2.2 := by
  have cancelled := Correlator.cancel_fails coherent c.token
  unfold cancel
  split
  · split
    · rename_i same
      rw [same] at cancelled
      exact cancelled
    · rename_i same
      rw [same] at cancelled
      exact cancelled
  · exact .refl coherent

theorem drop_fails (coherent : k.Coherent) (c : Call) : k.Fails (c.drop k) := by
  unfold drop
  split
  · exact Correlator.cancel_fails coherent c.token
  · exact .refl coherent

theorem expire_fails (coherent : k.Coherent) (c : Call) (after : Duration) : k.Fails (c.expire after k).2.2 := by
  unfold expire
  split
  · exact .refl coherent
  · exact cancel_fails coherent _

end Call

end PolicyClient
