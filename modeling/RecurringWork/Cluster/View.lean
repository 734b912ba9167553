import RecurringWork.Cluster.Address

/-!
# RecurringWork.Cluster.View

**How a node sees its cluster.** A view gives the size of the cluster and the node's
own position in the order of addresses, which together name its share of the
backlog, and says whether the node is the one that runs the singleton duties. Views
are numbered; a later one has a larger version.
-/

namespace RecurringWork

/-- A node's view of its cluster. -/
structure View where
  isCoordinator : Bool
  /-- The IP address of the node, as text. -/
  ip : String
  version : Nat
  /-- The node's index in the sorted members. -/
  position : Nat
  size : Nat
  deriving DecidableEq, Repr

namespace View

/-- The view of a node that has not asked for the members yet. -/
def initial (node : Address) : View := ⟨false, node.ip.render, 0, 0, 1⟩

/-- The members with the node among them, in order. -/
def roster (node : Address) (members : List Address) : List Address :=
  Address.sorted (if members.contains node then members else members ++ [node])

/-- The view of `node` among `members`, which may have forgotten it. -/
def compute (node : Address) (members : List Address) (isCoordinator : Bool) (version : Nat) :
    View :=
  let all := roster node members
  ⟨isCoordinator, node.ip.render, version, (all.idxOf? node).getD 0, all.length⟩

def toJson (v : View) : Json :=
  .obj [("cluster_version", .ofNat v.version), ("ip_address", .str v.ip),
    ("is_coordinator", .bool v.isCoordinator), ("position", .ofNat v.position),
    ("size", .ofNat v.size)]

def ofJson? (j : Json) : Option View := do
  let ms ← j.record? ["is_coordinator", "ip_address", "cluster_version", "position", "size"]
  pure ⟨← Json.required? Json.bool? "is_coordinator" ms, ← Json.required? Json.text? "ip_address" ms,
    ← Json.required? Json.nat64? "cluster_version" ms, ← Json.required? Json.nat64? "position" ms,
    ← Json.required? Json.nat64? "size" ms⟩

def decode? (text : String) : Option View := (Json.read? text).bind ofJson?

end View

end RecurringWork
