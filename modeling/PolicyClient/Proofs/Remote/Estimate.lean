/-
# PolicyClient.Proofs.Remote.Estimate -- what the estimated size leaves out

A request is estimated at the size of its entry, its principal and its auxiliary data.  A call
for a group holds all the entries, but principal and auxiliary data only once, and every message
stands behind a header that no estimate counts.  So the estimates of a group exceed its call by
the askers of all requests but the first, and fall short of it by the headers
(`length_questions_call`).

They are enough exactly if the headers take no more than the askers that are counted again
(`fits_iff_framing`).  That is so if two or more small requests share a call
(`small_requests_fit`), and it is never so for one request by itself.
-/
import Mathlib.Algebra.Order.BigOperators.Group.List
import Mathlib.Algebra.Order.Group.Nat
import PolicyClient.Proofs.Check.Identity
import PolicyClient.Proofs.Client.Intake
import PolicyClient.Proofs.Remote.Grouping
import PolicyClient.Proofs.Wire.Size

namespace PolicyClient

set_option autoImplicit false

/-! ## What is counted -/

/-- The messages that tell who is asking. -/
def Request.askerSize (r : Request) : Nat :=
  r.principal.toWire.encode.length + r.auxData.elim 0 fun a => a.toWire.encode.length

theorem Request.estimatedSize_eq (r : Request) :
    r.estimatedSize = r.toEntry.encode.length + r.askerSize := by
  unfold estimatedSize askerSize
  omega

theorem totalSize_eq_sum (items : List Item) :
    totalSize items = (items.map fun i => i.request.estimatedSize).sum := by
  rw [totalSize, List.sum_eq_foldl, List.foldl_map]

theorem totalSize_flatten (groups : List (List Item)) :
    totalSize groups.flatten = (groups.map totalSize).sum := by
  induction groups with
  | nil => rfl
  | cons group rest ih =>
    rw [List.flatten_cons, List.map_cons, List.sum_cons, ← ih]
    simp only [totalSize_eq_sum, List.map_append, List.sum_append]

namespace Remote

/-- The call for a group holds the messages that its requests are estimated at, but for the askers
of all requests after the first. -/
theorem contentSize_call (id : String) (first : Item) (rest : List Item) :
    (call id first rest).contentSize + (rest.map fun i => i.request.askerSize).sum =
      totalSize (first :: rest) := by
  have others : (rest.map fun i => i.request.estimatedSize).sum =
      (rest.map fun i => i.request.toEntry.encode.length).sum + (rest.map fun i => i.request.askerSize).sum := by
    simp only [Request.estimatedSize_eq, List.sum_map_add]
  have auxData : ((first.request.auxData.map AuxData.toWire).elim 0 fun a => a.encode.length) =
      first.request.auxData.elim 0 fun a => a.toWire.encode.length := by
    cases first.request.auxData <;> rfl
  simp only [totalSize_eq_sum, List.map_cons, List.sum_cons, others, Request.estimatedSize_eq first.request,
    Request.askerSize, Wire.CheckCall.contentSize, call, auxData, List.map_map, Function.comp_def]
  omega

/-- **What the estimates of a group leave out** is the framing of its call, and what they count too
often is who is asking. -/
theorem length_questions_call (id : String) (first : Item) (rest : List Item) :
    (call id first rest).questions.length + (rest.map fun i => i.request.askerSize).sum =
      totalSize (first :: rest) + (call id first rest).framing := by
  rw [Wire.CheckCall.length_questions, ← contentSize_call id first rest]
  omega

/-- **The calls of a batch** hold no more than its requests are estimated at. -/
theorem contentSize_calls (batch : Batch) :
    ((calls batch).map fun c => c.call.contentSize).sum ≤ totalSize batch.items := by
  have each : ∀ c ∈ calls batch, c.call.contentSize ≤ totalSize c.items := by
    intro c member
    obtain ⟨-, index, first, rest, rfl⟩ := mem_calls member
    exact Nat.le_of_add_right_le (Nat.le_of_eq (contentSize_call _ first rest))
  calc ((calls batch).map fun c => c.call.contentSize).sum
      ≤ ((calls batch).map fun c => totalSize c.items).sum := List.sum_le_sum each
    _ = (((calls batch).map GroupCall.items).map totalSize).sum := by rw [List.map_map]; rfl
    _ = totalSize (group batch.items).flatten := by rw [items_calls, totalSize_flatten]
    _ = totalSize batch.items := by
      rw [totalSize_eq_sum, totalSize_eq_sum]
      exact ((group_perm batch.items).map _).sum_eq

/-- Every request of the group has the asker of the first. -/
def ShareAsker (first : Item) (rest : List Item) : Prop :=
  ∀ i ∈ rest, i.request.principal = first.request.principal ∧ i.request.auxData = first.request.auxData

variable {first : Item} {rest : List Item}

theorem ShareAsker.sum (share : ShareAsker first rest) :
    (rest.map fun i => i.request.askerSize).sum = rest.length * first.request.askerSize := by
  have same : ∀ i ∈ rest, i.request.askerSize = first.request.askerSize := by
    intro i member
    obtain ⟨principal, auxData⟩ := share i member
    rw [Request.askerSize, Request.askerSize, principal, auxData]
  rw [List.map_congr_left same, List.map_const', List.sum_replicate_nat]

/-- Sharing an asker pays for the framing, or the estimates are short of the call. -/
theorem fits_iff_framing (share : ShareAsker first rest) (id : String) :
    (call id first rest).questions.length ≤ totalSize (first :: rest) ↔
      (call id first rest).framing ≤ rest.length * first.request.askerSize := by
  have balance := length_questions_call id first rest
  rw [share.sum] at balance
  omega

/-- One request by itself has nobody to share with. -/
theorem lone_exceeds (id : String) (first : Item) :
    totalSize [first] < (call id first []).questions.length := by
  have balance := length_questions_call id first []
  have header := Wire.two_le_headerSize (call id first []).principal.encode.length
  unfold Wire.CheckCall.framing at balance
  simp only [List.map_nil, List.sum_nil] at balance
  omega

/-! ## Small requests -/

/-- Who has been put together by calls takes six bytes at least: an id and a role. -/
theorem le_length_principal {d : Draft} {p : Principal} (made : Principal.ofDraft d = .ok p) :
    6 ≤ p.toWire.encode.length := by
  obtain ⟨named, role, member, roleNamed⟩ : p.id ≠ "" ∧ ∃ role ∈ p.roleNames, role ≠ "" := by
    unfold Principal.ofDraft at made
    split at made
    · cases made
    · next named =>
      split at made
      · cases made
      · next some =>
        split at made
        · cases made
        · next unnamed =>
          cases made
          refine ⟨named, ?_⟩
          obtain ⟨role, member⟩ := List.exists_mem_of_ne_nil d.roles.keys (by simpa [Table.keys, Table.isEmpty] using some)
          refine ⟨role, member, ?_⟩
          rintro rfl
          exact unnamed ((Table.contains_eq_true_iff ..).mpr ((Table.mem_keys_iff ..).mp member))
  have id : 3 ≤ (Wire.textField 1 p.id).length := by
    rw [Wire.textField, if_neg named]
    exact Wire.le_length_textAlways (by decide) named
  have roles : 3 ≤ (p.roleNames.flatMap (Wire.textAlways 3)).length := by
    obtain ⟨before, after, split⟩ := List.append_of_mem member
    have text := Wire.le_length_textAlways (by decide : 3 < 16) roleNamed
    simp only [split, List.flatMap_append, List.flatMap_cons, List.length_append]
    omega
  simp only [Wire.Principal.encode, Principal.toWire, List.length_append]
  omega

/-- **Two or more small requests** of one asker are estimated high enough: what the first header
of an asker and the headers of entries below 128 bytes take is less than the asker counted again. -/
theorem small_requests_fit (share : ShareAsker first rest) {d : Draft}
    (made : Principal.ofDraft d = .ok first.request.principal) (several : rest ≠ [])
    (small : ∀ i ∈ first :: rest, i.request.toEntry.encode.length < 128) (id : String) :
    (call id first rest).questions.length ≤ totalSize (first :: rest) := by
  have entries : ((call id first rest).resources.map fun e => Wire.headerSize e.encode.length).sum =
      (rest.length + 1) * 2 := by
    have each : ∀ i ∈ first :: rest, Wire.headerSize i.request.toEntry.encode.length = 2 := by
      intro i member
      exact Wire.headerSize_of_lt (small i member)
    simp only [call, List.map_map, Function.comp_def]
    rw [List.map_congr_left each, List.map_const', List.sum_replicate_nat, List.length_cons]
  have principal := le_length_principal made
  have principalHeader := Wire.headerSize_le first.request.principal.toWire.encode.length
  have auxData : ((first.request.auxData.map AuxData.toWire).elim 0 fun a => Wire.headerSize a.encode.length) ≤
      first.request.auxData.elim 0 fun a => a.toWire.encode.length := by
    cases first.request.auxData with
    | none => simp
    | some a =>
      have header := Wire.headerSize_le a.toWire.encode.length
      have two : 2 ≤ a.toWire.encode.length := by
        rw [Wire.AuxData.encode, Wire.length_delimited (by decide)]
        exact Nat.le_add_right_of_le (Wire.two_le_headerSize _)
      simp only [Option.map_some, Option.elim_some]
      omega
  obtain ⟨m, count⟩ : ∃ m, rest.length = m + 1 :=
    Nat.exists_eq_succ_of_ne_zero fun none => several (List.length_eq_zero_iff.mp none)
  have again : m * 6 ≤ m * first.request.askerSize := by
    apply Nat.mul_le_mul_left
    unfold Request.askerSize
    omega
  rw [fits_iff_framing share, Wire.CheckCall.framing, entries, count, Nat.succ_mul m]
  simp only [call, Request.askerSize] at again ⊢
  omega

/-- **How estimates compare with a call** for requests of one asker: they cover its questions exactly if
the framing takes no more than the asker counted again, and that is so of two or more small requests. -/
theorem questions_sized (share : ShareAsker first rest) (id : String) :
    ((call id first rest).questions.length ≤ totalSize (first :: rest) ↔
        (call id first rest).framing ≤ rest.length * first.request.askerSize) ∧
      (rest ≠ [] → (∃ d, Principal.ofDraft d = .ok first.request.principal) →
        (∀ i ∈ first :: rest, i.request.toEntry.encode.length < 128) →
        (call id first rest).questions.length ≤ totalSize (first :: rest)) :=
  ⟨fits_iff_framing share id, fun several ⟨_, made⟩ small => small_requests_fit share made several small id⟩

end Remote

end PolicyClient
