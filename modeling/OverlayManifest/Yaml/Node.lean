/-
# Nodes of a YAML document

A document is a node: a scalar, a sequence, a mapping, or an alias for a node
that has an anchor. An alias stands at first for a name and, once linked, for a
number: nodes with an anchor are numbered as they start, by the number of names
that are known then. A number that is given out again belongs to the later node.
-/

namespace OverlayManifest.Yaml

/-- A node, with aliases of some kind. -/
inductive Node (α : Type)
  | alias (target : α)
  | scalar (anchor : Option String) (text : String) (plain : Bool)
  | sequence (anchor : Option String) (items : List (Node α))
  | mapping (anchor : Option String) (members : List (Node α × Node α))
  deriving Inhabited, Repr

namespace Node

/-- A scalar that is not written. -/
def absent {α : Type} (anchor : Option String) : Node α := .scalar anchor "" true

/-- A node has no text and no quotes. -/
def isAbsent {α : Type} : Node α → Bool
  | .scalar _ text plain => plain && text.isEmpty
  | _ => false

/-- The numbers of the names that are known, and the nodes that got a number. -/
structure Linking where
  names : List (String × Nat) := []
  nodes : List (Nat × Node Nat) := []

/-- The number of the next anchor, which is how many names are known. -/
def Linking.next (linking : Linking) : Nat := linking.names.length

/-- Gives an anchor its number. -/
def Linking.define (linking : Linking) : Option String → Linking
  | none => linking
  | some name =>
      { linking with
        names := (name, linking.next) :: linking.names.filter (·.1 != name) }

/-- Notes the node of an anchor that got a number before the nodes inside it. -/
def Linking.note (linking : Linking) (earlier : Linking) (anchor : Option String)
    (node : Node Nat) : Linking :=
  match anchor with
  | none => linking
  | some _ =>
      let inside := linking.nodes.take (linking.nodes.length - earlier.nodes.length)
      { linking with nodes := inside ++ (earlier.next, node) :: earlier.nodes }

mutual

/-- Replaces names by numbers; an alias for an unknown name is refused. -/
def link (linking : Linking) : Node String → Option (Node Nat × Linking)
  | .alias name =>
      match linking.names.lookup name with
      | some number => some (.alias number, linking)
      | none => none
  | .scalar anchor text plain =>
      let node : Node Nat := .scalar anchor text plain
      some (node, (linking.define anchor).note linking anchor node)
  | .sequence anchor items => do
      let (items, inside) ← linkItems (linking.define anchor) items
      let node : Node Nat := .sequence anchor items
      return (node, inside.note linking anchor node)
  | .mapping anchor members => do
      let (members, inside) ← linkMembers (linking.define anchor) members
      let node : Node Nat := .mapping anchor members
      return (node, inside.note linking anchor node)

/-- Links the items of a sequence in order. -/
def linkItems (linking : Linking) : List (Node String) → Option (List (Node Nat) × Linking)
  | [] => some ([], linking)
  | item :: items => do
      let (item, linking) ← item.link linking
      let (items, linking) ← linkItems linking items
      return (item :: items, linking)

/-- Links the members of a mapping in order, each key before its value. -/
def linkMembers (linking : Linking) :
    List (Node String × Node String) → Option (List (Node Nat × Node Nat) × Linking)
  | [] => some ([], linking)
  | (key, value) :: members => do
      let (key, linking) ← key.link linking
      let (value, linking) ← value.link linking
      let (members, linking) ← linkMembers linking members
      return ((key, value) :: members, linking)

end

end Node

/-- A document whose aliases are linked. -/
structure Document where
  root : Node Nat
  nodes : List (Nat × Node Nat)
  deriving Inhabited

namespace Document

/-- Links the aliases of a node. -/
def ofNode? (node : Node String) : Option Document :=
  (node.link {}).map fun (root, linking) => ⟨root, linking.nodes⟩

/-- The node that a node stands for. -/
def resolve (document : Document) : Node Nat → Node Nat
  | .alias number => (document.nodes.lookup number).getD (.alias number)
  | node => node

/-- The text of a scalar. -/
def text? (document : Document) (node : Node Nat) : Option String :=
  match document.resolve node with
  | .scalar _ text _ => some text
  | _ => none

/-- The texts of a sequence of scalars; what is not written is an empty sequence. -/
def texts? (document : Document) (node : Node Nat) : Option (List String) :=
  match document.resolve node with
  | .sequence _ items => items.mapM document.text?
  | node => if node.isAbsent then some [] else none

/-- The members of a mapping whose keys are scalars; what is not written is an empty
mapping. -/
def members? (document : Document) : Option (List (String × Node Nat)) :=
  match document.root with
  | .mapping _ members =>
      members.mapM fun (key, value) => (document.text? key).map (·, value)
  | node => if node.isAbsent then some [] else none

end Document

end OverlayManifest.Yaml
