/-
# PolicyClient.Proofs.Remote.Slots -- an answer never goes to another request

The response to a call is read slot by slot.  Whatever it holds, each of its entries gives one
reply: the entry in the slot of a request is told to that request, and it answers it unless it
names another resource; entries without a slot are told to nobody (`BySlot`).  A response that
names another call answers nothing at all, and calls have different names: the name of a call
gives away its batch and its group (`requestId_injective`).

So the replies to a call name each of its tokens once at most, and no others
(`tokens_replies_sublist`).  Over all the calls of a batch, in whatever order they come back, no
token is named twice (`replies_by_slot`).
-/
import Mathlib.Data.List.Basic
import Mathlib.Data.List.Flatten
import PolicyClient.Proofs.Attempt.Words
import PolicyClient.Proofs.Remote.Grouping
import PolicyClient.Remote.Pairing

namespace PolicyClient

set_option autoImplicit false

namespace Remote

/-! ## Names of calls -/

theorem toList_toString (n : Nat) : (toString n).toList = Nat.toDigits 10 n := by
  rw [Nat.toString_eq_ofList_toDigits, String.toList_ofList]

theorem toString_injective {m n : Nat} (same : (toString m).toList = (toString n).toList) : m = n := by
  rw [toList_toString, toList_toString] at same
  calc
    m = Nat.ofDigitChars 10 (Nat.toDigits 10 m) 0 := Nat.ofDigitChars_ten_toDigits.symm
    _ = Nat.ofDigitChars 10 (Nat.toDigits 10 n) 0 := by rw [same]
    _ = n := Nat.ofDigitChars_ten_toDigits

theorem dash_not_mem_toString (n : Nat) : '-' ∉ (toString n).toList := by
  rw [toList_toString]
  intro member
  have digit := Nat.isDigit_of_mem_toDigits (by decide) (by decide) member
  cases digit

/-- The name of a call gives away its batch and its group: no digit is a dash. -/
theorem requestId_injective {b b' : BatchId} {i i' : Nat} (same : requestId b i = requestId b' i') :
    b = b' ∧ i = i' := by
  have letters := congrArg String.toList same
  have dash : "-".toList = ['-'] := rfl
  simp only [requestId, BatchId.text, String.toList_append, List.append_assoc, List.append_cancel_left_eq,
    dash, List.singleton_append] at letters
  obtain ⟨batch, -, index⟩ := (List.append_cons_inj_of_notMem (dash_not_mem_toString b.number)
    (dash_not_mem_toString i)).1 letters
  have number := toString_injective batch
  cases b
  cases b'
  cases number
  exact ⟨rfl, toString_injective index⟩

/-! ## Slots -/

/-- An entry answers the request in its slot unless it names another resource. -/
def Answers (entry : Wire.ResultEntry) (item : Item) : Prop :=
  ∀ echoed, entry.resource = some echoed →
    echoed.kind = item.request.resource.kind ∧ echoed.id = item.request.resource.id

/-- Replies pair entries with requests by slot. -/
structure BySlot (items : List Item) (entries : List Wire.ResultEntry) (told : List Reply) : Prop where
  /-- One reply for each request with an entry, in order and under its token, then the surplus. -/
  split : ∃ paired surplus, told = paired ++ surplus ∧
    paired.map Reply.tokens = (items.take entries.length).map (fun i => [i.token]) ∧
    surplus.length = entries.length - items.length ∧ ∀ reply ∈ surplus, reply.isUnmatched = true
  answered : ∀ (n : Nat) item entry, items[n]? = some item → entries[n]? = some entry →
    Answers entry item → told[n]? = some (.result item.token (Answer.ofEntry entry))
  misplaced : ∀ (n : Nat) item entry, items[n]? = some item → entries[n]? = some entry →
    ¬ Answers entry item → ∃ cause, told[n]? = some (.failed [item.token] (.protocolViolation cause))

theorem tokens_replyTo (item : Item) (entry : Wire.ResultEntry) :
    (replyTo item entry).tokens = [item.token] := by
  simp only [replyTo]
  split
  · split
    · rfl
    · rfl
  · rfl

theorem replyTo_of_answers {item : Item} {entry : Wire.ResultEntry} (answers : Answers entry item) :
    replyTo item entry = .result item.token (Answer.ofEntry entry) := by
  unfold replyTo
  split
  · rename_i echoed names
    exact if_pos (answers echoed names)
  · rfl

theorem replyTo_of_not_answers {item : Item} {entry : Wire.ResultEntry} (elsewhere : ¬ Answers entry item) :
    ∃ cause, replyTo item entry = .failed [item.token] (.protocolViolation cause) := by
  unfold replyTo
  split
  · rename_i echoed names
    refine ⟨_, if_neg fun same => elsewhere fun echoed' names' => ?_⟩
    rw [names] at names'
    cases names'
    exact same
  · rename_i silent
    exact absurd (fun echoed names => by rw [silent] at names; cases names) elsewhere

theorem map_tokens_zipWith (items : List Item) (entries : List Wire.ResultEntry) :
    (List.zipWith replyTo items entries).map Reply.tokens =
      (items.take entries.length).map fun i => [i.token] := by
  induction items generalizing entries with
  | nil => simp
  | cons item items ih =>
    cases entries with
    | nil => rfl
    | cons entry entries =>
      simp only [List.zipWith_cons_cons, List.map_cons, tokens_replyTo, ih, List.length_cons,
        List.take_succ_cons]

theorem replies_foreign {id : String} {response : Wire.CheckResponse} (foreign : response.requestId ≠ id)
    (items : List Item) : replies id items response =
      [.failed (items.map Item.token) (.protocolViolation (.foreignEcho response.requestId id))] :=
  if_pos foreign

theorem replies_own {id : String} {response : Wire.CheckResponse} (own : response.requestId = id)
    (items : List Item) : replies id items response =
      List.zipWith replyTo items response.results ++ (response.results.drop items.length).map (surplus id) :=
  if_neg (not_not.2 own)

theorem replies_bySlot {id : String} {response : Wire.CheckResponse} (own : response.requestId = id)
    (items : List Item) : BySlot items response.results (replies id items response) := by
  have slot : ∀ (n : Nat) item entry, items[n]? = some item → response.results[n]? = some entry →
      (replies id items response)[n]? = some (replyTo item entry) := by
    intro n item entry request answer
    have within : (List.zipWith replyTo items response.results)[n]? = some (replyTo item entry) := by
      rw [List.getElem?_zipWith, request, answer]
    rw [replies_own own, List.getElem?_append_left (List.getElem?_eq_some_iff.1 within).1, within]
  refine ⟨⟨_, _, replies_own own items, map_tokens_zipWith items response.results, ?_, ?_⟩, ?_, ?_⟩
  · rw [List.length_map, List.length_drop]
  · intro reply member
    obtain ⟨entry, -, rfl⟩ := List.mem_map.1 member
    rfl
  · intro n item entry request answer answers
    rw [slot n item entry request answer, replyTo_of_answers answers]
  · intro n item entry request answer elsewhere
    obtain ⟨cause, same⟩ := replyTo_of_not_answers elsewhere
    exact ⟨cause, by rw [slot n item entry request answer, same]⟩

/-! ## Tokens -/

/-- The replies to a call name its tokens only, each of them once at most. -/
theorem tokens_replies_sublist (id : String) (items : List Item) (response : Wire.CheckResponse) :
    ((replies id items response).flatMap Reply.tokens).Sublist (items.map Item.token) := by
  by_cases own : response.requestId = id
  · have paired : (List.zipWith replyTo items response.results).flatMap Reply.tokens =
        (items.take response.results.length).map Item.token := by
      rw [List.flatMap_def, map_tokens_zipWith, ← List.flatMap_def, ← List.map_eq_flatMap]
    have surplus : ((response.results.drop items.length).map (surplus id)).flatMap Reply.tokens = [] :=
      List.flatMap_eq_nil_iff.2 fun reply member => by
        obtain ⟨entry, -, rfl⟩ := List.mem_map.1 member
        rfl
    rw [replies_own own, List.flatMap_append, paired, surplus, List.append_nil]
    exact (List.take_sublist _ _).map _
  · rw [replies_foreign own, List.flatMap_singleton, Reply.tokens_failed]

/-- **Answers are paired by slot, and nothing is said of a token twice.** -/
theorem replies_by_slot :
    (∀ id items (response : Wire.CheckResponse), response.requestId ≠ id → replies id items response =
      [.failed (items.map Item.token) (.protocolViolation (.foreignEcho response.requestId id))]) ∧
    (∀ id items (response : Wire.CheckResponse), response.requestId = id →
      BySlot items response.results (replies id items response)) ∧
    (∀ b i b' i', requestId b i = requestId b' i' → b = b' ∧ i = i') ∧
    ∀ batch : Batch, batch.tokens.Nodup →
      ∀ (respond : GroupCall → Wire.CheckResponse) (order : List GroupCall), order.Perm (calls batch) →
        ((order.flatMap fun c => c.replies (respond c)).flatMap Reply.tokens).Nodup := by
  refine ⟨fun id items response foreign => replies_foreign foreign items,
    fun id items response own => replies_bySlot own items, fun b i b' i' => requestId_injective, ?_⟩
  intro batch distinct respond order all
  have each : ((order.flatMap fun c => c.replies (respond c)).flatMap Reply.tokens).Sublist
      (order.flatMap fun c => c.items.map Item.token) := by
    rw [List.flatMap_assoc]
    exact List.Sublist.flatMap_right _ fun c _ => tokens_replies_sublist c.call.requestId c.items (respond c)
  have grouped : ((calls batch).flatMap fun c => c.items.map Item.token) =
      (group batch.items).flatten.map Item.token := by
    rw [← items_calls, List.map_flatten, List.map_map, List.flatMap_def]
    rfl
  have tokens : (order.flatMap fun c => c.items.map Item.token).Perm batch.tokens := by
    refine (all.flatMap_right _).trans ?_
    rw [grouped]
    exact (group_perm batch.items).map Item.token
  exact (tokens.nodup_iff.2 distinct).sublist each

/-- Alice asks about two documents. -/
def twoDocuments : Batch where
  id := ⟨1⟩
  items := ["a", "b"].zipIdx.map fun (id, n) => ⟨⟨n + 1⟩, {
    principal := ⟨"alice", .ofList [("employee", ())], .empty, none, none⟩
    resource := ⟨"document", id, .empty, none, none⟩
    actions := [⟨"print", by decide⟩]
    auxData := none }⟩

/-- A response with the two entries in each other's slot, and one too many. -/
def swapped : Wire.CheckResponse where
  requestId := "batch-1-0"
  results := ["b", "a", "c"].map fun id => { resource := some { kind := "document", id } }

/-- The entry in the first slot answers neither request, and no token is named twice. -/
theorem swapped_by_slot :
    swapped.requestId = requestId ⟨1⟩ 0 ∧ twoDocuments.tokens.Nodup ∧
      (∃ cause, (replies (requestId ⟨1⟩ 0) twoDocuments.items swapped)[0]? =
        some (.failed [⟨1⟩] (.protocolViolation cause))) ∧
      (((calls twoDocuments).flatMap fun c => c.replies swapped).flatMap Reply.tokens).Nodup := by
  obtain ⟨-, bySlot, -, nodup⟩ := replies_by_slot
  have own : swapped.requestId = requestId ⟨1⟩ 0 := by rfl
  have distinct : twoDocuments.tokens.Nodup := by decide
  have paired := bySlot (requestId ⟨1⟩ 0) twoDocuments.items swapped own
  refine ⟨own, distinct, paired.misplaced 0 _ _ rfl rfl ?_, nodup _ distinct (fun _ => swapped) _ (.refl _)⟩
  intro answers
  exact absurd (answers _ rfl).2 (by decide)

end Remote

end PolicyClient
