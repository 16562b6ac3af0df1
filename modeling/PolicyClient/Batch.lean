/-
# PolicyClient.Batch -- what is sent together, and what comes back

A batch is a list of requests in the order of their submission, each under its token.
Replies name tokens and come in any order.
-/
import PolicyClient.Check.Answer
import PolicyClient.Wire.Conversion

namespace PolicyClient

set_option autoImplicit false

/-- One request of a batch. -/
structure Item where
  token : Token
  request : Request

/-- Requests sent together.  A batch that is sent again keeps its id and holds the requests
that still wait. -/
structure Batch where
  id : BatchId
  items : List Item

def Batch.tokens (b : Batch) : List Token := b.items.map Item.token

/-- One element of the answer to a batch. -/
inductive Reply
  /-- The request under `token` is answered. -/
  | result (token : Token) (answer : Answer)
  /-- The requests under `tokens` have no answer. -/
  | failed (tokens : List Token) (error : Error)
  /-- Something came that answers no request of the batch. -/
  | unmatched (detail : String)

/-- The reply to an item whose request has been evaluated by itself. -/
def Item.replyWith (item : Item) : Except Error Answer → Reply
  | .ok answer => .result item.token answer
  | .error error => .failed [item.token] error

/-- The replies to a batch whose requests are evaluated one by one, in memory. -/
def Batch.evaluate (evaluator : Request → Except Error Answer) (b : Batch) : List Reply :=
  b.items.map fun item => item.replyWith (evaluator item.request)

/-! ## The batch that is being filled -/

/-- The open batch and its estimated size. -/
structure OpenBatch where
  id : BatchId
  items : List Item := []
  bytes : Nat := 0

namespace OpenBatch

/-- Whether `size` more bytes are too many for a batch that holds something already. -/
def overflows (o : OpenBatch) (size maxBytes : Nat) : Bool :=
  !o.items.isEmpty && maxBytes < o.bytes + size

def add (o : OpenBatch) (item : Item) (size : Nat) : OpenBatch :=
  { o with items := o.items ++ [item], bytes := o.bytes + size }

/-- Whether the batch has reached one of its limits. -/
def isFull (o : OpenBatch) (maxItems maxBytes : Nat) : Bool :=
  maxItems ≤ o.items.length || maxBytes ≤ o.bytes

def close (o : OpenBatch) : Batch := ⟨o.id, o.items⟩

end OpenBatch

end PolicyClient
