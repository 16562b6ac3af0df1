/-
# PolicyClient.Ids -- names of checks and batches

A token names one submitted check, a batch id one batch.  An `IdSource` hands out both
in counting order, so neither repeats within one session.
-/
import PolicyClient.Table

namespace PolicyClient

set_option autoImplicit false

/-- Names one submitted check. -/
structure Token where
  number : Nat
deriving DecidableEq, Inhabited, Repr

namespace Token

instance : Ord Token := Ord.byKey Token.number

instance : Std.TransOrd Token := Ord.byKey_trans Token.number

instance : Std.LawfulEqOrd Token :=
  Ord.byKey_lawfulEq Token.number fun {_ b} h => by cases b; cases h; rfl

/-- The name shown to callers. -/
def text (t : Token) : String := "req-" ++ toString t.number

/-- The name with its kind. -/
def debugText (t : Token) : String := "CorrelationToken(" ++ toString t.number ++ ")"

end Token

/-- Names one batch. -/
structure BatchId where
  number : Nat
deriving DecidableEq, Inhabited, Repr

namespace BatchId

instance : Ord BatchId := Ord.byKey BatchId.number

instance : Std.TransOrd BatchId := Ord.byKey_trans BatchId.number

instance : Std.LawfulEqOrd BatchId :=
  Ord.byKey_lawfulEq BatchId.number fun {_ b} h => by cases b; cases h; rfl

/-- The name shown to callers. -/
def text (b : BatchId) : String := "batch-" ++ toString b.number

/-- The name with its kind. -/
def debugText (b : BatchId) : String := "BatchId(" ++ toString b.number ++ ")"

end BatchId

/-- How many tokens and batch ids have been handed out.  Each is a name of 64 bits; no session hands
out so many that they are used up, so they are counted without end here. -/
structure IdSource where
  tokens : Nat := 0
  batches : Nat := 0
deriving DecidableEq, Inhabited, Repr

namespace IdSource

def nextToken (s : IdSource) : Token × IdSource := (⟨s.tokens + 1⟩, { s with tokens := s.tokens + 1 })

def nextBatch (s : IdSource) : BatchId × IdSource :=
  (⟨s.batches + 1⟩, { s with batches := s.batches + 1 })

end IdSource

end PolicyClient
