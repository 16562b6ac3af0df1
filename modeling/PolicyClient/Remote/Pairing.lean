/-
# PolicyClient.Remote.Pairing -- which answer belongs to which request

A response holds one entry per request of its call, in the same order.  An entry in the
slot of a request answers it unless it names another resource.  A response that names
another call answers nothing, and entries beyond the last slot belong to nobody.
-/
import PolicyClient.Remote.Grouping

namespace PolicyClient

set_option autoImplicit false

namespace Remote

/-- The reply that an entry gives to the request in its slot. -/
def replyTo (item : Item) (entry : Wire.ResultEntry) : Reply :=
  let resource := item.request.resource
  match entry.resource with
  | some echoed =>
    if echoed.kind = resource.kind ∧ echoed.id = resource.id then
      .result item.token (Answer.ofEntry entry)
    else
      .failed [item.token]
        (.protocolViolation (.misplaced echoed.kind echoed.id resource.kind resource.id))
  | none => .result item.token (Answer.ofEntry entry)

/-- What is said of an entry without a slot. -/
def surplus (requestId : String) (entry : Wire.ResultEntry) : Reply :=
  let (kind, id) := match entry.resource with
    | some r => (r.kind, r.id)
    | none => ("", "")
  .unmatched (requestId ++ ": surplus result for " ++ kind ++ ":" ++ id)

/-- The replies to the requests of one call.  Requests without an entry get none. -/
def replies (requestId : String) (items : List Item) (response : Wire.CheckResponse) : List Reply :=
  if response.requestId ≠ requestId then
    [.failed (items.map Item.token)
      (.protocolViolation (.foreignEcho response.requestId requestId))]
  else
    List.zipWith replyTo items response.results ++
      (response.results.drop items.length).map (surplus requestId)

/-- What the items of a call are told by the response to it. -/
def GroupCall.replies (c : GroupCall) (response : Wire.CheckResponse) : List Reply :=
  Remote.replies c.call.requestId c.items response

end Remote

end PolicyClient
