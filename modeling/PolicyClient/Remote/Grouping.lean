/-
# PolicyClient.Remote.Grouping -- which requests travel in one call

One call asks for one principal with one set of auxiliary data.  The requests of a batch
are split by who is asking; groups stand in the order of their first requests, and the
requests of a group keep the order of the batch.  Every group makes one call (`calls`).
-/
import PolicyClient.Batch

namespace PolicyClient

set_option autoImplicit false

namespace Remote

/-- Puts an item into the first group with its key, or into a new group at the end. -/
def addToGroups (item : Item) (key : Digest) :
    List (Digest × List Item) → List (Digest × List Item)
  | [] => [(key, [item])]
  | (k, items) :: rest =>
    if k = key then (k, items ++ [item]) :: rest
    else (k, items) :: addToGroups item key rest

/-- The groups of a batch. -/
def group (items : List Item) : List (List Item) :=
  (items.foldl (fun groups item => addToGroups item item.request.groupKey groups) []).map (·.2)

/-- The id of the call for one group of a batch. -/
def requestId (batch : BatchId) (index : Nat) : String := batch.text ++ "-" ++ toString index

/-- The call for a group; the first request tells who is asking. -/
def call (requestId : String) (first : Item) (rest : List Item) : Wire.CheckCall :=
  { requestId
    principal := first.request.principal.toWire
    resources := (first :: rest).map fun i => i.request.toEntry
    auxData := first.request.auxData.map AuxData.toWire }

/-- A call that is made for the items of one group. -/
structure GroupCall where
  items : List Item
  call : Wire.CheckCall

/-- The call for the group at `index`.  Nobody makes no call. -/
def groupCall? (batch : BatchId) (index : Nat) : List Item → Option GroupCall
  | [] => none
  | first :: rest => some ⟨first :: rest, call (requestId batch index) first rest⟩

/-- The calls for a batch, in the order of its groups. -/
def calls (batch : Batch) : List GroupCall :=
  (group batch.items).zipIdx.filterMap fun (items, index) => groupCall? batch.id index items

end Remote

end PolicyClient
