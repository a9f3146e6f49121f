import MessageFlow.Campaign.Layout
import MessageFlow.Campaign.Link
import MessageFlow.Flow
import MessageFlow.IdSource

/-! Campaigns: templates that are sent one after the other. Descriptors that do not read are left out. -/

namespace MessageFlow

/-- Descriptors in the order in which they are sent. -/
structure Campaign where
  descriptors : List Campaign.Descriptor
  layout : Campaign.Layout

/-- Why a campaign cannot be sequenced. -/
inductive CampaignError where
  | empty
deriving DecidableEq

def CampaignError.message : CampaignError → String
  | .empty => "Input must be a non-empty array"

namespace Campaign

/-- The campaign of the items that describe a step. -/
def ofItems (items : List Json) (layout : Layout) : Campaign :=
  ⟨items.filterMap fun v => (Descriptor.record.read v).toOption, layout⟩

def size (c : Campaign) : Nat := c.descriptors.length

def isEmpty (c : Campaign) : Bool := c.descriptors.isEmpty

/-- The edge between two nodes of a campaign. -/
def edge (source target : String) : Edge where
  id := source ++ "-" ++ target
  source := source
  target := target
  type := some "custom"
  animated := some true
  settings := some {}

/-- The edges from each node to the next. -/
def chain : List String → List Edge
  | a :: b :: rest => edge a b :: chain (b :: rest)
  | _ => []

/-- The steps with the given ids, each leading to the next; the last leads nowhere. -/
def steps : List Descriptor → List String → List Step
  | d :: ds, id :: ids => d.step id ids.head?.toList :: steps ds ids
  | _, _ => []

/-- The nodes with the given ids, from an index of the column on. -/
def nodes (l : Layout) : Nat → List Descriptor → List String → List Node
  | i, d :: ds, id :: ids => d.node l i id :: nodes l (i + 1) ds ids
  | _, _, _ => []

/-- Links the steps in their order and lays them out, with an anchor behind the last. -/
def sequence (c : Campaign) (ids : IdSource) : Except CampaignError (Flow × IdSource) :=
  let drawn := ids.peek c.size
  match drawn.getLast? with
  | none => .error .empty
  | some last =>
    let rest := ids.skip c.size
    let anchor := anchorId rest.head
    .ok ({ stepEdges := chain drawn, steps := steps c.descriptors drawn,
           nodes := nodes c.layout 0 c.descriptors drawn ++ [anchorNode c.layout c.size anchor last],
           edges := chain drawn ++ [edge last anchor] }, rest.skip 1)

end Campaign
end MessageFlow
