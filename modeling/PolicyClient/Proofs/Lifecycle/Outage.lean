/-
# PolicyClient.Proofs.Lifecycle.Outage -- which failures add up

A lifecycle hears what becomes of its session, each thing at its time (`Lifecycle.hear`).
Every failure is recorded, whether it counts or not, and it counts if its attempt began no
earlier than the last failure recorded since the last success.

So a failure counts if its attempt follows a chain of failed attempts, one after the other
(`Lifecycle.Chain`), with no other failure recorded while it was under way.  As many of
these as the limit close the session (`Lifecycle.sustained_outage_closes`), and only they do
(`Lifecycle.closing_failures_apart`).  Attempts that were under way together add one failure
at most between them.

An attempt that another failure overtakes does not count, though it began after the one
before it had failed.  So attempts that overlap in turn may keep a session open for as long
as they fail (`Lifecycle.staggered_failures_share`).
-/
import Mathlib.Data.List.Induction
import PolicyClient.Proofs.Lifecycle.Closing

namespace PolicyClient

set_option autoImplicit false

namespace Lifecycle

/-! ## What a lifecycle hears -/

/-- What can become of a session. -/
inductive News
  /-- A dispatch is to connect. -/
  | connecting
  | connected
  | link (up : Bool)
  | success
  /-- An attempt that began at `started` has failed for the moment. -/
  | failure (started : Instant) (error : String)
  | closing (reason : String)

/-- Some news, and the time it comes. -/
structure Report where
  time : Instant
  news : News

/-- Whether an attempt has failed. -/
def Report.Fails (x : Report) : Prop := ∃ started error, x.news = .failure started error

/-- Takes in one report. -/
def hear (limit : Nat) (l : Lifecycle) (x : Report) : Lifecycle :=
  match x.news with
  | .connecting => l.beginConnect.2
  | .connected => l.onConnected
  | .link up => if up then l.onLinkUp else l.onLinkDown
  | .success => l.onSuccess
  | .failure started error => (l.onFailure x.time started limit error).2
  | .closing reason => (l.close reason).2

/-- The lifecycle after some reports. -/
def after (limit : Nat) (l : Lifecycle) (reports : List Report) : Lifecycle :=
  reports.foldl (hear limit) l

/-- Reports come in the order of their times, and no attempt fails before it begins. -/
structure Timely (reports : List Report) : Prop where
  ordered : reports.Pairwise fun x y => x.time ≤ y.time
  begun : ∀ t started error, ⟨t, .failure started error⟩ ∈ reports → started ≤ t

/-- The reports since the last success. -/
def sinceSuccess (reports : List Report) : List Report :=
  reports.foldl (fun since x => match x.news with | .success => [] | _ => since ++ [x]) []

/-- `n` attempts fail one after the other: the reports begin with the failure of the first
and end with that of the last, at `time`, and each attempt but the first began no earlier
than the one before it had failed.  What comes in between is fit for when it began. -/
inductive Chain (fit : List Report → Instant → Prop) : Nat → Instant → List Report → Prop
  | first (time started : Instant) (error : String) :
    Chain fit 1 time [⟨time, .failure started error⟩]
  | next {n : Nat} {last : Instant} {reports : List Report} (chain : Chain fit n last reports)
    (between : List Report) (time started : Instant) (error : String) (apart : last ≤ started)
    (fits : fit between started) :
    Chain fit (n + 1) time (reports ++ between ++ [⟨time, .failure started error⟩])

/-- No failure is recorded after `started`. -/
def Undisturbed (reports : List Report) (started : Instant) : Prop :=
  ∀ x ∈ reports, x.Fails → x.time ≤ started

/-! ## One report -/

section

variable {l : Lifecycle} (limit : Nat)

theorem hear_of_closed (closed : l.state = .closed) (x : Report) : l.hear limit x = l := by
  unfold hear
  cases x.news with
  | connecting => simp [beginConnect_of_closed closed]
  | connected => simp [onConnected_of_closed closed]
  | link up => cases up <;> simp [onLinkUp_of_closed closed, onLinkDown_of_closed closed]
  | success => simp [onSuccess_of_closed closed]
  | failure started error => simp [onFailure_of_closed closed]
  | closing reason => simp [close_of_closed closed]

theorem hear_success (running : l.state ≠ .closed) {x : Report} (success : x.news = .success) :
    (l.hear limit x).failures = 0 ∧ (l.hear limit x).lastFailure = none := by
  simp [hear, success, onSuccess, running]

/-- Only successes and failures touch the count. -/
theorem hear_aside (l : Lifecycle) {x : Report} (failure : ¬ x.Fails) (success : x.news ≠ .success) :
    (l.hear limit x).failures = l.failures ∧ (l.hear limit x).lastFailure = l.lastFailure := by
  unfold hear
  split
  · unfold beginConnect
    split <;> simp
  · unfold onConnected
    split <;> simp
  · unfold onLinkUp onLinkDown
    split <;> split <;> simp
  · exact absurd ‹_› success
  · exact absurd ⟨_, _, ‹_›⟩ failure
  · unfold close
    split <;> simp

/-- What a failure adds to the count of a session that is not closed. -/
inductive Adds (l : Lifecycle) (time started : Instant) (limit : Nat) (l' : Lifecycle) : Prop
  | nothing (overtaken : ¬ l.Clear started) (failures : l'.failures = l.failures)
  | one (clear : l.Clear started) (failures : l'.failures = l.failures + 1)
    (closes : limit ≤ l.failures + 1 → l'.state = .closed)

theorem hear_failure (running : l.state ≠ .closed) (time started : Instant) (error : String) :
    (l.hear limit ⟨time, .failure started error⟩).lastFailure = some time ∧
      Adds l time started limit (l.hear limit ⟨time, .failure started error⟩) := by
  have reckons := l.onFailure_reckons time started limit error
  simp only [hear]
  generalize l.onFailure time started limit error = result at reckons
  cases reckons with
  | late closed => exact absurd closed running
  | shared _ overtaken => exact ⟨by simp, .nothing overtaken (by simp)⟩
  | counted _ clear below => exact ⟨by simp, .one clear (by simp) fun reached => by omega⟩
  | closing _ clear => exact ⟨by simp, .one clear (by simp) fun _ => by simp⟩

end

/-! ## Many reports -/

section

variable {limit : Nat}

theorem after_snoc (limit : Nat) (l : Lifecycle) (reports : List Report) (x : Report) :
    l.after limit (reports ++ [x]) = (l.after limit reports).hear limit x := by
  simp [after]

theorem after_append (limit : Nat) (l : Lifecycle) (first later : List Report) :
    l.after limit (first ++ later) = (l.after limit first).after limit later :=
  List.foldl_append

/-- A session that is open has been open all the time. -/
theorem running_of_hear {l : Lifecycle} {x : Report} (running : (l.hear limit x).state ≠ .closed) :
    l.state ≠ .closed := by
  intro closed
  rw [hear_of_closed limit closed] at running
  exact running closed

/-- The count of an open session is below the limit, and above zero once a failure has been
recorded. -/
structure Counting (limit : Nat) (l : Lifecycle) : Prop where
  below : l.failures < limit
  recorded : l.lastFailure ≠ none → 0 < l.failures

theorem Counting.hear {l : Lifecycle} (h : Counting limit l) {x : Report}
    (running : (l.hear limit x).state ≠ .closed) : Counting limit (l.hear limit x) := by
  have before := running_of_hear running
  by_cases failure : x.Fails
  · obtain ⟨time, _⟩ := x
    obtain ⟨started, error, rfl⟩ := failure
    obtain ⟨-, adds⟩ := hear_failure limit before time started error
    cases adds with
    | nothing overtaken same =>
      constructor
      · rw [same]
        exact h.below
      · intro _
        rw [same]
        apply h.recorded
        intro none
        exact overtaken (clear_of_none none started)
    | one clear more closes =>
      constructor
      · rw [more]
        by_contra reached
        exact running (closes (by omega))
      · intro _
        omega
  · by_cases success : x.news = .success
    · obtain ⟨count, last⟩ := hear_success limit before success
      constructor
      · rw [count]
        exact Nat.lt_of_le_of_lt (Nat.zero_le _) h.below
      · exact fun some => absurd last some
    · obtain ⟨count, last⟩ := hear_aside limit l failure success
      constructor
      · rw [count]
        exact h.below
      · rw [count, last]
        exact h.recorded

theorem counting_after (positive : 0 < limit) {reports : List Report}
    (running : (after limit {} reports).state ≠ .closed) : Counting limit (after limit {} reports) := by
  induction reports using List.reverseRecOn with
  | nil => exact ⟨positive, fun some => absurd rfl some⟩
  | append_singleton reports x ih =>
    rw [after_snoc] at running ⊢
    exact (ih (running_of_hear running)).hear running

/-! ## A chain closes the session -/

/-- The session is closed, or it has counted `n` failures and recorded none after `time`. -/
def Reached (n : Nat) (time : Instant) (l : Lifecycle) : Prop :=
  l.state = .closed ∨ (n ≤ l.failures ∧ l.Clear time)

theorem Reached.hear {n : Nat} {started : Instant} {l : Lifecycle} (h : Reached n started l)
    {x : Report} (unbroken : x.news ≠ .success) (undisturbed : x.Fails → x.time ≤ started) :
    Reached n started (l.hear limit x) := by
  by_cases closed : l.state = .closed
  · rw [hear_of_closed limit closed]
    exact .inl closed
  · obtain ⟨counted, clear⟩ := h.resolve_left closed
    right
    by_cases failure : x.Fails
    · have early := undisturbed failure
      obtain ⟨time, _⟩ := x
      obtain ⟨began, error, rfl⟩ := failure
      obtain ⟨last, adds⟩ := hear_failure limit closed time began error
      constructor
      · cases adds with
        | nothing _ same => omega
        | one _ more => omega
      · rw [clear_iff_of_some last]
        exact early
    · obtain ⟨count, last⟩ := hear_aside limit l failure unbroken
      rw [count, Clear, last]
      exact ⟨counted, clear⟩

theorem Reached.after {n : Nat} {started : Instant} {l : Lifecycle} (h : Reached n started l)
    {reports : List Report} (unbroken : ∀ x ∈ reports, x.news ≠ .success)
    (undisturbed : Undisturbed reports started) : Reached n started (l.after limit reports) := by
  induction reports using List.reverseRecOn with
  | nil => exact h
  | append_singleton reports x ih =>
    rw [after_snoc]
    have last := List.mem_append_right reports (List.mem_singleton_self x)
    apply Reached.hear
    · apply ih
      · exact fun y member => unbroken y (List.mem_append_left _ member)
      · exact fun y member => undisturbed y (List.mem_append_left _ member)
    · exact unbroken x last
    · exact undisturbed x last

/-- A failure counts if none is recorded after its attempt began. -/
theorem Reached.fail {n : Nat} {started : Instant} {l : Lifecycle} (h : Reached n started l)
    (time : Instant) (error : String) :
    Reached (n + 1) time (l.hear limit ⟨time, .failure started error⟩) := by
  by_cases closed : l.state = .closed
  · rw [hear_of_closed limit closed]
    exact .inl closed
  · obtain ⟨counted, clear⟩ := h.resolve_left closed
    obtain ⟨last, adds⟩ := hear_failure limit closed time started error
    right
    constructor
    · cases adds with
      | nothing overtaken => exact absurd clear overtaken
      | one _ more => omega
    · rw [clear_iff_of_some last]
      exact Nat.le_refl _

theorem reached_of_chain {l : Lifecycle} (counting : l.state ≠ .closed → Counting limit l) {n : Nat}
    {time : Instant} {reports : List Report} (chain : Chain Undisturbed n time reports)
    (unbroken : ∀ x ∈ reports, x.news ≠ .success) : Reached n time (l.after limit reports) := by
  induction chain with
  | first time started error =>
    show Reached 1 time (l.hear limit ⟨time, .failure started error⟩)
    by_cases closed : l.state = .closed
    · rw [hear_of_closed limit closed]
      exact .inl closed
    · obtain ⟨last, adds⟩ := hear_failure limit closed time started error
      right
      constructor
      · cases adds with
        | nothing overtaken same =>
          -- The failure is part of an earlier one, and that one has been counted.
          rw [same]
          apply (counting closed).recorded
          intro none
          exact overtaken (clear_of_none none started)
        | one _ more => omega
      · rw [clear_iff_of_some last]
        exact Nat.le_refl _
  | @next n last reports chain between time started error apart fits ih =>
    rw [after_snoc, after_append]
    have reached : Reached n started (l.after limit reports) := by
      apply (ih fun x member => unbroken x (by simp [member])).imp_right
      intro ⟨counted, clear⟩
      exact ⟨counted, fun last' found => Nat.le_trans (clear last' found) apart⟩
    exact (reached.after (fun x member => unbroken x (by simp [member])) fits).fail time error

theorem Chain.positive {fit : List Report → Instant → Prop} {n : Nat} {time : Instant}
    {reports : List Report} (chain : Chain fit n time reports) : 0 < n := by
  cases chain <;> omega

/-- **An outage that is long enough closes the session.**  If as many attempts as the limit
fail one after the other, none of them overtaken by another failure, and none succeeds
meanwhile, the session is closed after the last of them.  Other attempts may fail before and
in between, and links may come and go. -/
theorem sustained_outage_closes {last : Instant} (before : List Report) {outage : List Report}
    (chain : Chain Undisturbed limit last outage) (unbroken : ∀ x ∈ outage, x.news ≠ .success) :
    (after limit {} (before ++ outage)).state = .closed := by
  rw [after_append]
  rcases reached_of_chain (fun running => counting_after chain.positive running) chain unbroken with closed | ⟨counted, -⟩
  · exact closed
  · by_contra running
    rw [← after_append] at running counted
    have below := (counting_after chain.positive running).below
    omega

/-- Two attempts fail one after the other, the link goes up and down in between, and a third
one that began before both fails with the first of them. -/
def failingRetry : List Report :=
  [⟨.ofMilliseconds 10, .failure (.ofMilliseconds 4) "timeout"⟩,
    ⟨.ofMilliseconds 10, .failure (.ofMilliseconds 2) "timeout"⟩,
    ⟨.ofMilliseconds 11, .link true⟩, ⟨.ofMilliseconds 12, .link false⟩,
    ⟨.ofMilliseconds 20, .failure (.ofMilliseconds 12) "timeout"⟩]

/-- A session with a limit of two is closed after that, whatever came before. -/
theorem failing_retry_closes :
    Chain Undisturbed 2 (.ofMilliseconds 20) failingRetry ∧ (∀ x ∈ failingRetry, x.news ≠ .success) ∧
      (after 2 {} ([⟨.ofMilliseconds 1, .success⟩] ++ failingRetry)).state = .closed := by
  have chain : Chain Undisturbed 2 (.ofMilliseconds 20) failingRetry := by
    apply (Chain.first (.ofMilliseconds 10) (.ofMilliseconds 4) "timeout").next
      [⟨.ofMilliseconds 10, .failure (.ofMilliseconds 2) "timeout"⟩,
        ⟨.ofMilliseconds 11, .link true⟩, ⟨.ofMilliseconds 12, .link false⟩]
    · decide
    · intro x member _
      simp only [List.mem_cons, List.not_mem_nil, or_false] at member
      rcases member with rfl | rfl | rfl <;> decide
  have unbroken : ∀ x ∈ failingRetry, x.news ≠ .success := by simp [failingRetry]
  exact ⟨chain, unbroken, sustained_outage_closes _ chain unbroken⟩

/-! ## Attempts that overlap in turn -/

/-- The `k`-th of some attempts that each begin halfway through the one before. -/
def staggeredFailure (k : Nat) : Report :=
  ⟨.ofMilliseconds (5 * k + 10), .failure (.ofMilliseconds (5 * k)) "timeout"⟩

/-- Such attempts add one failure between them, however many there are. -/
theorem staggered_failures_share (n : Nat) (more : 1 < limit) :
    let l := after limit {} ((List.range (n + 1)).map staggeredFailure)
    l.state = .degraded ∧ l.failures = 1 ∧ l.lastFailure = some (.ofMilliseconds (5 * n + 10)) := by
  induction n with
  | zero =>
    have reckons := onFailure_reckons {} (.ofMilliseconds 10) (.ofMilliseconds 0) limit "timeout"
    show let l := (onFailure {} (.ofMilliseconds 10) (.ofMilliseconds 0) limit "timeout").2
      l.state = .degraded ∧ l.failures = 1 ∧ l.lastFailure = some (.ofMilliseconds 10)
    generalize onFailure {} (.ofMilliseconds 10) (.ofMilliseconds 0) limit "timeout" = result at reckons
    cases reckons with
    | late closed => cases closed
    | shared _ overtaken => exact absurd (clear_of_none rfl _) overtaken
    | counted => simp
    | closing _ _ reached => exact absurd more (Nat.not_lt_of_le reached)
  | succ n ih =>
    obtain ⟨state, count, last⟩ := ih
    rw [List.range_succ, List.map_append, List.map_singleton, after_snoc]
    generalize after limit {} ((List.range (n + 1)).map staggeredFailure) = l at state count last
    have reckons := l.onFailure_reckons (.ofMilliseconds (5 * (n + 1) + 10))
      (.ofMilliseconds (5 * (n + 1))) limit "timeout"
    simp only [hear, staggeredFailure]
    generalize l.onFailure (.ofMilliseconds (5 * (n + 1) + 10)) (.ofMilliseconds (5 * (n + 1))) limit
      "timeout" = result at reckons
    -- The attempt began before the one before it had failed.
    have overtaken : ¬ l.Clear (.ofMilliseconds (5 * (n + 1))) := by
      rw [clear_iff_of_some last]
      show ¬ (5 * n + 10) * Duration.nanosPerMillisecond ≤ (5 * (n + 1)) * Duration.nanosPerMillisecond
      simp only [Duration.nanosPerMillisecond]
      omega
    cases reckons with
    | late closed => simp [state] at closed
    | shared => simp [count]
    | counted _ clear => exact absurd clear overtaken
    | closing _ clear => exact absurd clear overtaken

/-- Two attempts fail one after the other, as many as the limit, and nothing succeeds; but a
third attempt overtakes the second, and the session stays open. -/
theorem staggered_outage_stays_open :
    Timely ((List.range 3).map staggeredFailure) ∧
      Chain (fun _ _ => True) 2 (.ofMilliseconds 20) ((List.range 3).map staggeredFailure) ∧
      (∀ x ∈ (List.range 3).map staggeredFailure, x.news ≠ .success) ∧
      (after 2 {} ((List.range 3).map staggeredFailure)).state ≠ .closed := by
  refine ⟨⟨?_, ?_⟩, ?_, ?_, ?_⟩
  · rw [List.pairwise_map]
    apply List.pairwise_lt_range.imp
    intro i j below
    show (5 * i + 10) * Duration.nanosPerMillisecond ≤ (5 * j + 10) * Duration.nanosPerMillisecond
    exact Nat.mul_le_mul_right _ (by omega)
  · intro t started error member
    obtain ⟨k, -, same⟩ := List.mem_map.1 member
    cases same
    show 5 * k * Duration.nanosPerMillisecond ≤ (5 * k + 10) * Duration.nanosPerMillisecond
    simp only [Duration.nanosPerMillisecond]
    omega
  · apply (Chain.first (.ofMilliseconds 10) .zero "timeout").next [staggeredFailure 1]
    · decide
    · trivial
  · intro x member
    obtain ⟨k, -, rfl⟩ := List.mem_map.1 member
    nofun
  · rw [(staggered_failures_share 2 (by decide)).1]
    decide

/-! ## Only a chain closes the session -/

theorem sinceSuccess_snoc (reports : List Report) (x : Report) :
    sinceSuccess (reports ++ [x]) =
      match x.news with | .success => [] | _ => sinceSuccess reports ++ [x] := by
  simp [sinceSuccess]

theorem sinceSuccess_snoc_success (reports : List Report) {x : Report} (success : x.news = .success) :
    sinceSuccess (reports ++ [x]) = [] := by
  rw [sinceSuccess_snoc, success]

theorem sinceSuccess_snoc_of_ne (reports : List Report) {x : Report} (other : x.news ≠ .success) :
    sinceSuccess (reports ++ [x]) = sinceSuccess reports ++ [x] := by
  rw [sinceSuccess_snoc]
  split
  · exact absurd ‹_› other
  · rfl

theorem mem_of_mem_sinceSuccess {reports : List Report} {y : Report} (member : y ∈ sinceSuccess reports) :
    y ∈ reports := by
  induction reports using List.reverseRecOn with
  | nil => exact member
  | append_singleton reports x ih =>
    by_cases success : x.news = .success
    · rw [sinceSuccess_snoc_success reports success] at member
      cases member
    · rw [sinceSuccess_snoc_of_ne reports success] at member
      rcases List.mem_append.1 member with before | new
      · exact List.mem_append_left _ (ih before)
      · exact List.mem_append_right _ new

/-- What an open session has recorded: the last failure since the last success. -/
theorem clear_after {reports : List Report} (ordered : reports.Pairwise fun x y => x.time ≤ y.time)
    (running : (after limit {} reports).state ≠ .closed) (started : Instant) :
    (after limit {} reports).Clear started ↔ Undisturbed (sinceSuccess reports) started := by
  induction reports using List.reverseRecOn with
  | nil => exact ⟨fun _ => nofun, fun _ => clear_of_none rfl started⟩
  | append_singleton reports x ih =>
    rw [after_snoc] at running ⊢
    have running' := running_of_hear running
    obtain ⟨ordered', -, latest⟩ := List.pairwise_append.1 ordered
    have ih := ih ordered' running'
    by_cases success : x.news = .success
    · rw [sinceSuccess_snoc_success reports success]
      have none := (hear_success limit running' success).2
      exact ⟨fun _ => nofun, fun _ => clear_of_none none started⟩
    · rw [sinceSuccess_snoc_of_ne reports success]
      by_cases failure : x.Fails
      · obtain ⟨time, _⟩ := x
        obtain ⟨began, error, rfl⟩ := id failure
        rw [clear_iff_of_some (hear_failure limit running' time began error).1]
        constructor
        · intro early y member _
          rcases List.mem_append.1 member with before | new
          · have le := latest y (mem_of_mem_sinceSuccess before) _ (List.mem_singleton_self _)
            exact Nat.le_trans le early
          · rw [List.mem_singleton.1 new]
            exact early
        · intro undisturbed
          exact undisturbed _ (List.mem_append_right _ (List.mem_singleton_self _)) failure
      · obtain ⟨-, last⟩ := hear_aside limit (after limit {} reports) failure success
        rw [Clear, last]
        refine Iff.trans ih ⟨fun undisturbed y member fails => ?_, fun undisturbed y member => ?_⟩
        · rcases List.mem_append.1 member with before | new
          · exact undisturbed y before fails
          · rw [List.mem_singleton.1 new] at fails
            exact absurd fails failure
        · exact undisturbed y (List.mem_append_left _ member)

theorem Chain.last_mem {fit : List Report → Instant → Prop} {n : Nat} {time : Instant}
    {reports : List Report} (chain : Chain fit n time reports) :
    ∃ x ∈ reports, x.Fails ∧ x.time = time := by
  cases chain with
  | first time started error => exact ⟨_, List.mem_singleton_self _, ⟨started, error, rfl⟩, rfl⟩
  | next chain between time started error =>
    exact ⟨_, List.mem_append_right _ (List.mem_singleton_self _), ⟨started, error, rfl⟩, rfl⟩

/-- The count `n` is that of a chain of failed attempts among these reports. -/
def Accounts (n : Nat) (reports : List Report) : Prop :=
  n = 0 ∨ ∃ early outage rest time, reports = early ++ outage ++ rest ∧ Chain Undisturbed n time outage

/-- The chain goes on with an attempt that no failure has overtaken. -/
theorem Accounts.extend {n : Nat} {reports : List Report} (h : Accounts n reports) {started : Instant}
    (undisturbed : Undisturbed reports started) (time : Instant) (error : String) :
    ∃ early outage, reports ++ [⟨time, .failure started error⟩] = early ++ outage ∧
      Chain Undisturbed (n + 1) time outage := by
  rcases h with rfl | ⟨early, outage, rest, last, rfl, chain⟩
  · exact ⟨reports, _, rfl, .first time started error⟩
  · refine ⟨early, outage ++ rest ++ [⟨time, .failure started error⟩], by simp, ?_⟩
    apply chain.next
    · obtain ⟨x, member, fails, rfl⟩ := chain.last_mem
      exact undisturbed x (by simp [member]) fails
    · intro x member
      exact undisturbed x (by simp [member])

theorem accounts_after {reports : List Report} (ordered : reports.Pairwise fun x y => x.time ≤ y.time)
    (running : (after limit {} reports).state ≠ .closed) :
    Accounts (after limit {} reports).failures (sinceSuccess reports) := by
  induction reports using List.reverseRecOn with
  | nil => exact .inl rfl
  | append_singleton reports x ih =>
    rw [after_snoc] at running ⊢
    have running' := running_of_hear running
    have ordered' := (List.pairwise_append.1 ordered).1
    have ih := ih ordered' running'
    have longer : ∀ n, Accounts n (sinceSuccess reports) → Accounts n (sinceSuccess reports ++ [x]) := by
      intro n accounts
      apply accounts.imp_right
      rintro ⟨early, outage, rest, time, split, chain⟩
      exact ⟨early, outage, rest ++ [x], time, by rw [split, List.append_assoc], chain⟩
    by_cases success : x.news = .success
    · rw [(hear_success limit running' success).1]
      exact .inl rfl
    · rw [sinceSuccess_snoc_of_ne reports success]
      by_cases failure : x.Fails
      · obtain ⟨time, _⟩ := x
        obtain ⟨started, error, rfl⟩ := failure
        cases (hear_failure limit running' time started error).2 with
        | nothing _ same =>
          rw [same]
          exact longer _ ih
        | one clear more =>
          obtain ⟨early, outage, split, chain⟩ :=
            ih.extend ((clear_after ordered' running' started).1 clear) time error
          rw [more, split]
          exact .inr ⟨early, outage, [], time, by simp, chain⟩
      · rw [(hear_aside limit _ failure success).1]
        exact longer _ ih

/-- **What closes a session at the limit** is a chain of failed attempts since the last
success, as many as the limit, of which the last one closes it. -/
theorem chain_of_closing (positive : 0 < limit) {reports : List Report}
    (ordered : reports.Pairwise fun x y => x.time ≤ y.time) {time started : Instant} {error reason : String}
    (closes : ((after limit {} reports).onFailure time started limit error).1 = .closed reason) :
    ∃ early outage, sinceSuccess reports ++ [⟨time, .failure started error⟩] = early ++ outage ∧
      Chain Undisturbed limit time outage := by
  have reckons := (after limit {} reports).onFailure_reckons time started limit error
  generalize (after limit {} reports).onFailure time started limit error = result at reckons closes
  cases reckons with
  | late | shared | counted => cases closes
  | closing running clear reached =>
    have below := (counting_after positive running).below
    have full : limit = (after limit {} reports).failures + 1 := by omega
    have undisturbed := (clear_after ordered running started).1 clear
    obtain ⟨early, outage, split, chain⟩ := (accounts_after ordered running).extend undisturbed time error
    rw [← full] at chain
    exact ⟨early, outage, split, chain⟩

/-! ## Attempts that are under way together -/

/-- By how much those of the reports that are picked out raise the count. -/
def added (limit : Nat) (picked : Report → Bool) (l : Lifecycle) : List Report → Nat
  | [] => 0
  | x :: rest =>
    (if picked x then (l.hear limit x).failures - l.failures else 0) +
      added limit picked (l.hear limit x) rest

/-- After a failure at `time` nothing is added by attempts that had begun before. -/
theorem added_eq_zero {picked : Report → Bool} {time : Instant} {l : Lifecycle}
    (recorded : l.state = .closed ∨ ∃ last, l.lastFailure = some last ∧ time ≤ last)
    {rest : List Report} (later : ∀ x ∈ rest, time ≤ x.time) (unbroken : ∀ x ∈ rest, x.news ≠ .success)
    (together : ∀ x ∈ rest, picked x = true →
      ∃ started error, x.news = .failure started error ∧ started < time) :
    added limit picked l rest = 0 := by
  induction rest generalizing l with
  | nil => rfl
  | cons x rest ih =>
    have none : (if picked x then (l.hear limit x).failures - l.failures else 0) = 0 ∧
        ((l.hear limit x).state = .closed ∨
          ∃ last, (l.hear limit x).lastFailure = some last ∧ time ≤ last) := by
      by_cases closed : l.state = .closed
      · rw [hear_of_closed limit closed]
        exact ⟨by simp, .inl closed⟩
      · obtain ⟨last, found, le⟩ := recorded.resolve_left closed
        have here := List.mem_cons_self (a := x) (l := rest)
        by_cases failure : x.Fails
        · have after := later x here
          have began := together x here
          obtain ⟨now, _⟩ := x
          obtain ⟨started, error, rfl⟩ := failure
          obtain ⟨found', adds⟩ := hear_failure limit closed now started error
          refine ⟨?_, .inr ⟨now, found', after⟩⟩
          split
          · obtain ⟨_, _, same, before⟩ := began ‹_›
            cases same
            cases adds with
            | nothing _ same => omega
            | one clear =>
              rw [clear_iff_of_some found] at clear
              have le : time.nanos ≤ last.nanos := le
              have clear : last.nanos ≤ started.nanos := clear
              have before : started.nanos < time.nanos := before
              omega
          · rfl
        · obtain ⟨count, last'⟩ := hear_aside limit l failure (unbroken x here)
          rw [count, last']
          exact ⟨by simp, .inr ⟨last, found, le⟩⟩
    have tail := ih none.2 (fun y member => later y (List.mem_cons_of_mem _ member))
      (fun y member => unbroken y (List.mem_cons_of_mem _ member))
      (fun y member => together y (List.mem_cons_of_mem _ member))
    rw [added, none.1, tail]

/-- **Attempts that are under way together add one failure at most**, and they do if none was
recorded after the first of them to fail had begun. -/
theorem added_together {before rest : List Report} {time started : Instant} {error : String}
    (ordered : (before ++ ⟨time, .failure started error⟩ :: rest).Pairwise fun x y => x.time ≤ y.time)
    (unbroken : ∀ x ∈ rest, x.news ≠ .success) {picked : Report → Bool}
    (first : picked ⟨time, .failure started error⟩ = true)
    (together : ∀ x ∈ rest, picked x = true →
      ∃ started error, x.news = .failure started error ∧ started < time) :
    added limit picked (after limit {} before) (⟨time, .failure started error⟩ :: rest) ≤ 1 ∧
      (added limit picked (after limit {} before) (⟨time, .failure started error⟩ :: rest) = 1 ↔
        (after limit {} before).state ≠ .closed ∧ Undisturbed (sinceSuccess before) started) := by
  obtain ⟨ordered', tail, -⟩ := List.pairwise_append.1 ordered
  have later := (List.pairwise_cons.1 tail).1
  rw [added, if_pos first]
  by_cases closed : (after limit {} before).state = .closed
  · rw [hear_of_closed limit closed, added_eq_zero (.inl closed) later unbroken together]
    simp [closed]
  · obtain ⟨last, adds⟩ := hear_failure limit closed time started error
    rw [added_eq_zero (.inr ⟨time, last, Nat.le_refl _⟩) later unbroken together,
      ← clear_after ordered' closed started]
    cases adds with
    | nothing overtaken same =>
      rw [same]
      simp [overtaken]
    | one clear more =>
      rw [more]
      simp [closed, clear]

/-- **The limit never closes a session for one burst of failures.**  If a failure closes a
session, then as many attempts as the limit have failed one after the other since the last
success, none overtaken by another failure, and this failure is the last of theirs.  And
attempts of which the first to fail did so after all had begun, with no success in between,
add one failure at most to the count; they do add one if the session is open and none was
recorded, since the last success, after the first of them to fail had begun. -/
theorem closing_failures_apart (positive : 0 < limit) :
    (∀ reports time started error reason, Timely (reports ++ [⟨time, .failure started error⟩]) →
      ((after limit {} reports).onFailure time started limit error).1 = .closed reason →
      ∃ early outage, sinceSuccess reports ++ [⟨time, .failure started error⟩] = early ++ outage ∧
        Chain Undisturbed limit time outage) ∧
    ∀ before time started error rest, Timely (before ++ ⟨time, .failure started error⟩ :: rest) →
      (∀ x ∈ rest, x.news ≠ .success) →
      ∀ picked : Report → Bool, picked ⟨time, .failure started error⟩ = true →
        (∀ x ∈ ⟨time, .failure started error⟩ :: rest, picked x = true →
          ∃ started error, x.news = .failure started error ∧ started < time) →
        added limit picked (after limit {} before) (⟨time, .failure started error⟩ :: rest) ≤ 1 ∧
          (added limit picked (after limit {} before) (⟨time, .failure started error⟩ :: rest) = 1 ↔
            (after limit {} before).state ≠ .closed ∧ Undisturbed (sinceSuccess before) started) := by
  constructor
  · intro reports time started error reason timely closes
    exact chain_of_closing positive (List.pairwise_append.1 timely.ordered).1 closes
  · intro before time started error rest timely unbroken picked first together
    exact added_together timely.ordered unbroken first fun x member =>
      together x (List.mem_cons_of_mem _ member)

/-- The failures of attempts that began before another time. -/
def begunBefore (time : Instant) (x : Report) : Bool :=
  match x.news with
  | .failure started _ => started < time
  | _ => false

/-- The last of `failingRetry` closes a session with a limit of two, and the two that fail
together add one failure between them. -/
theorem failing_retry_apart :
    Timely failingRetry ∧
      (∃ early outage, failingRetry = early ++ outage ∧ Chain Undisturbed 2 (.ofMilliseconds 20) outage) ∧
      added 2 (begunBefore (.ofMilliseconds 10)) {} failingRetry = 1 := by
  have timely : Timely failingRetry := by
    constructor
    · decide
    · intro t started error member
      simp only [failingRetry, List.mem_cons, List.not_mem_nil, or_false, Report.mk.injEq,
        News.failure.injEq, reduceCtorEq, and_false, false_or] at member
      rcases member with ⟨rfl, rfl, -⟩ | ⟨rfl, rfl, -⟩ | ⟨rfl, rfl, -⟩ <;> decide
  obtain ⟨only, together⟩ := closing_failures_apart (show 0 < 2 by decide)
  refine ⟨timely, ?_, ?_⟩
  · exact only (failingRetry.take 4) (.ofMilliseconds 20) (.ofMilliseconds 12) "timeout" _ timely rfl
  · apply (together [] (.ofMilliseconds 10) (.ofMilliseconds 4) "timeout" (failingRetry.drop 1) timely
      _ (begunBefore (.ofMilliseconds 10)) rfl _).2.2
    · exact ⟨by decide, nofun⟩
    · simp [failingRetry]
    · intro x member picked
      simp only [failingRetry, List.drop, List.mem_cons, List.not_mem_nil, or_false] at member
      rcases member with rfl | rfl | rfl | rfl | rfl
      · exact ⟨_, _, rfl, by decide⟩
      · exact ⟨_, _, rfl, by decide⟩
      · cases picked
      · cases picked
      · exact absurd picked (by decide)

/-- Two attempts that begin before a third one fails, and fail after it. -/
def lateBurst : List Report :=
  List.replicate 2 ⟨.ofMilliseconds 20, .failure (.ofMilliseconds 5) "timeout"⟩

/-- Both had begun before the first of them fails, and nothing succeeds; but they add nothing
to the count of a session that is open. -/
theorem late_burst_adds_nothing :
    let before := [⟨.ofMilliseconds 10, .failure .zero "timeout"⟩]
    Timely (before ++ lateBurst) ∧
      (∀ x ∈ lateBurst, ∃ started error, x.news = .failure started error ∧ started < .ofMilliseconds 20) ∧
      (after 5 {} before).state = .degraded ∧
      added 5 (fun _ => true) (after 5 {} before) lateBurst = 0 := by
  refine ⟨⟨?_, ?_⟩, ?_, ?_, ?_⟩
  · decide
  · intro t started error member
    simp only [lateBurst, List.replicate, List.singleton_append, List.mem_cons, List.not_mem_nil,
      or_false, or_self, Report.mk.injEq, News.failure.injEq] at member
    rcases member with ⟨rfl, rfl, -⟩ | ⟨rfl, rfl, -⟩ <;> decide
  · intro x member
    rw [List.eq_of_mem_replicate member]
    exact ⟨_, _, rfl, by decide⟩
  · decide
  · decide

end

end Lifecycle

end PolicyClient
