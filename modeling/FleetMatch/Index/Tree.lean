import FleetMatch.Geo.Box
import FleetMatch.Roster.Client

/-!
# Trees of entries

A tree holds entries, which are clients with their positions in the roster.  Every tree knows a box
around its entries.

* `Tree.entries`: all entries, leaf by leaf; the view through which trees are described.
* `Tree.box`: the box of a tree; a joined tree has the least box above those of its halves.
* `Tree.shape`: how deep a tree is and how many trees and leaves it consists of.
-/

namespace FleetMatch

/-- A client with its position in the roster. -/
structure Entry where
  ordinal : Nat
  client : Client

/-- The place of the client. -/
def Entry.place (e : Entry) : Place := e.client.place

/-- The entries of a roster. -/
def Roster.entries (roster : Roster) : List Entry :=
  roster.zipIdx.map fun (client, ordinal) => ⟨ordinal, client⟩

/-- A tree of entries. -/
inductive Tree where
  | leaf (entries : List Entry) (box : Region)
  | node (left right : Tree) (box : Region)

namespace Tree

/-- The box around the entries. -/
def box : Tree → Region
  | .leaf _ box => box
  | .node _ _ box => box

/-- All entries, leaf by leaf. -/
def entries : Tree → List Entry
  | .leaf entries _ => entries
  | .node left right _ => left.entries ++ right.entries

/-- The leaf of some entries, with the least box around them. -/
def ofEntries (first : Entry) (rest : List Entry) : Tree :=
  .leaf (first :: rest) (Region.enclose first.place (rest.map Entry.place))

/-- The tree of two halves. -/
def join (left right : Tree) : Tree := .node left right (Region.expand left.box right.box)

/-- The number of trees that a tree consists of, itself included. -/
def size : Tree → Nat
  | .leaf .. => 1
  | .node left right _ => left.size + right.size + 1

/-- Depth and counts of a tree. -/
structure Shape where
  depth : Nat
  nodes : Nat
  leaves : Nat
  deriving DecidableEq, Repr

/-- Depth and counts of a tree: a leaf is one deep, two halves are one deeper than the deeper one. -/
def shape : Tree → Shape
  | .leaf .. => ⟨1, 1, 1⟩
  | .node left right _ =>
    let l := left.shape
    let r := right.shape
    ⟨max l.depth r.depth + 1, l.nodes + r.nodes + 1, l.leaves + r.leaves⟩

end Tree

end FleetMatch
