/-
# PolicyClient.Proofs.Config.Validation -- which settings can be worked with

Settings are let through exactly if no test finds fault with them: `Config.validate_eq_ok_iff` says so
of the settings of a session, and of the parts `BackoffConfig.validate_eq_ok_iff` and
`CacheConfig.validate_eq_ok_iff`.  What holds of all settings in use is read off `Config.Workable`.
-/
import PolicyClient.Config.Basic

namespace PolicyClient

set_option autoImplicit false

/-- Delays that a session can work with. -/
structure BackoffConfig.Workable (b : BackoffConfig) : Prop where
  ordered : b.initial ≤ b.max
  growing : Binary64.one.le b.multiplier = true
  finite : b.multiplier.isFinite = true
  jitterNonneg : Binary64.zero.le b.jitter = true
  jitterAtMost : b.jitter.le Binary64.one = true

/-- A cache that a session can work with. -/
structure CacheConfig.Workable (c : CacheConfig) : Prop where
  ttl : c.ttl ≠ .zero
  capacity : c.capacity ≠ 0

/-- Settings that a session can work with. -/
structure Config.Workable (c : Config) : Prop where
  maxBatchSize : c.maxBatchSize ≠ 0
  maxBatchBytes : c.maxBatchBytes ≠ 0
  flushInterval : c.flushInterval ≠ .zero
  requestTimeout : c.requestTimeout ≠ .zero
  failureLimit : c.failureLimit ≠ 0
  backoff : c.backoff.Workable
  cache : ∀ cache ∈ c.cache, cache.Workable

theorem refuseIf_eq_ok_iff {fault : Bool} {cause : Invalid} :
    refuseIf fault cause = .ok () ↔ fault = false := by
  unfold refuseIf
  cases fault with
  | true => exact ⟨nofun, nofun⟩
  | false => exact ⟨fun _ => rfl, fun _ => rfl⟩

/-- Tests in a row are passed when each of them is. -/
theorem bind_eq_ok_iff {first : Except Error Unit} {rest : Unit → Except Error Unit} :
    first >>= rest = .ok () ↔ first = .ok () ∧ rest () = .ok () := by
  cases first with
  | error e => exact ⟨nofun, fun passed => nomatch passed.1⟩
  | ok u => exact ⟨fun passed => ⟨rfl, passed⟩, fun passed => passed.2⟩

theorem BackoffConfig.validate_eq_ok_iff (b : BackoffConfig) : b.validate = .ok () ↔ b.Workable := by
  have span : b.max < b.initial ↔ ¬ b.initial ≤ b.max := Nat.not_le.symm
  simp only [validate, bind_eq_ok_iff, refuseIf_eq_ok_iff, span, decide_eq_false_iff_not,
    Decidable.not_not, Bool.not_eq_false', Bool.and_eq_true]
  constructor
  · rintro ⟨ordered, ⟨growing, finite⟩, nonneg, atMost⟩
    exact ⟨ordered, growing, finite, nonneg, atMost⟩
  · rintro ⟨ordered, growing, finite, nonneg, atMost⟩
    exact ⟨ordered, ⟨growing, finite⟩, nonneg, atMost⟩

theorem CacheConfig.validate_eq_ok_iff (c : CacheConfig) : c.validate = .ok () ↔ c.Workable := by
  simp only [validate, bind_eq_ok_iff, refuseIf_eq_ok_iff, decide_eq_false_iff_not]
  exact ⟨fun ⟨ttl, capacity⟩ => ⟨ttl, capacity⟩, fun ⟨ttl, capacity⟩ => ⟨ttl, capacity⟩⟩

theorem Config.validate_eq_ok_iff (c : Config) : c.validate = .ok () ↔ c.Workable := by
  have parts : c.validate = .ok () ↔ c.maxBatchSize ≠ 0 ∧ c.maxBatchBytes ≠ 0 ∧ c.flushInterval ≠ .zero ∧
      c.requestTimeout ≠ .zero ∧ c.failureLimit ≠ 0 ∧ c.backoff.Workable ∧
      ∀ cache ∈ c.cache, cache.Workable := by
    cases cached : c.cache with
    | none => simp [validate, bind_eq_ok_iff, refuseIf_eq_ok_iff, BackoffConfig.validate_eq_ok_iff,
        cached, pure, Except.pure]
    | some cache => simp [validate, bind_eq_ok_iff, refuseIf_eq_ok_iff, BackoffConfig.validate_eq_ok_iff,
        CacheConfig.validate_eq_ok_iff, cached]
  rw [parts]
  constructor
  · rintro ⟨size, bytes, interval, timeout, limit, backoff, cache⟩
    exact ⟨size, bytes, interval, timeout, limit, backoff, cache⟩
  · rintro ⟨size, bytes, interval, timeout, limit, backoff, cache⟩
    exact ⟨size, bytes, interval, timeout, limit, backoff, cache⟩

end PolicyClient
