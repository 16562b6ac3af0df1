/-
# PolicyClient.Inquiry -- several checks for one principal

A caller asks about several resources in one go.  All questions are put together before the
first of them is asked, so that nothing is asked if one of them cannot be put together.  Then
each has a check of its own, and the outcomes are waited for in the order of the questions.
The first failure is what the caller gets: it gives up the handles it still has.

An inquiry moves by events of a run (`Inquiry.move?`), one at a time, and goes on with what
they show (`Inquiry.proceed?`).
-/
import PolicyClient.Run

namespace PolicyClient

set_option autoImplicit false

/-- The first outcome among what has been shown. -/
def Observation.outcome? : List Observation → Option Outcome
  | [] => none
  | .outcome _ o :: _ => some o
  | _ :: rest => outcome? rest

/-- The token of the first new check among what has been shown. -/
def Observation.issued? : List Observation → Option Token
  | [] => none
  | .issued t :: _ => some t
  | _ :: rest => issued? rest

/-- Where the caller of several checks stands. -/
inductive Inquiry
  /-- A question is to be asked, and then the rest of them. -/
  | asking (question : Request) (rest : List Request) (asked : List Token)
  /-- The outcome of a check is waited for, and then those of the rest. -/
  | awaiting (token : Token) (rest : List Token) (answers : List Answer)
  /-- A check has failed.  A handle is to be given up, and then the rest of them. -/
  | leaving (token : Token) (rest : List Token) (error : Error)
  | finished (outcome : Except Error (List Answer))

namespace Inquiry

/-- Waits for these outcomes, with the answers to the earlier questions. -/
def await (answers : List Answer) : List Token → Inquiry
  | token :: rest => .awaiting token rest answers
  | [] => .finished (.ok answers)

/-- Gives up these handles. -/
def leave (error : Error) : List Token → Inquiry
  | token :: rest => .leaving token rest error
  | [] => .finished (.error error)

/-- Asks these questions; then the outcomes of all checks are waited for. -/
def ask (asked : List Token) : List Request → Inquiry
  | question :: rest => .asking question rest asked
  | [] => await [] asked

/-- What one principal wants to know of these resources. -/
def of (principal : Principal) (entries : List (Resource × List String)) : Inquiry :=
  match Request.ofEntries principal entries with
  | .ok questions => ask [] questions
  | .error e => .finished (.error e)

/-- What the caller does next. -/
def move? : Inquiry → Option Event
  | asking question _ _ => some (.submit question)
  | awaiting token _ _ => some (.poll token)
  | leaving token _ _ => some (.drop token)
  | finished _ => none

/-- Goes on with what the move has shown, unless there is nothing to go on with yet. -/
def proceed? (shown : List Observation) : Inquiry → Option Inquiry
  | asking _ rest asked => (Observation.issued? shown).map fun t => ask (asked ++ [t]) rest
  | awaiting _ rest answers => (Observation.outcome? shown).map fun
    | .ok answer => await (answers ++ [answer]) rest
    | .error e => leave e rest
  | leaving _ rest e => some (leave e rest)
  | finished _ => none

/-- The handles that the caller still has. -/
def held : Inquiry → List Token
  | asking _ _ asked => asked
  | awaiting token rest _ | leaving token rest _ => token :: rest
  | finished _ => []

end Inquiry

end PolicyClient
