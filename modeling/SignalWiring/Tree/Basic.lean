/-
Syntax trees.

A node has a kind, a start (a byte offset, and a row and a column that count from zero), perhaps its source text as
bytes, perhaps the name of the field that it is in its parent, and children. A node may be missing from the source, and
a reader may say of a node whether there is an error in it.

`preorder` lists a node and all below it in document order. A `Place` is a node together with the nodes above it.
-/
import SignalWiring.Fault

namespace SignalWiring

structure Tree where
  kind : String
  startByte : Int := 0
  row : Int := 0
  column : Int := 0
  text : Option (List UInt8) := none
  field : Option String := none
  /-- the parser put the node in where the source lacks it -/
  missing : Bool := false
  /-- what the reader says about errors in the node, if it says anything -/
  errorFlag : Option Bool := none
  children : List Tree := []
  deriving Inhabited

namespace Tree

mutual

def size : Tree → Nat
  | ⟨_, _, _, _, _, _, _, _, cs⟩ => 1 + sizeAll cs

/-- number of nodes of several trees -/
def sizeAll : List Tree → Nat
  | [] => 0
  | t :: ts => t.size + sizeAll ts

end

mutual

/-- a node and all below it, a node before its children and children from left to right -/
def preorder : Tree → List Tree
  | ⟨k, b, r, c, t, f, m, e, cs⟩ => ⟨k, b, r, c, t, f, m, e, cs⟩ :: preorderAll cs

def preorderAll : List Tree → List Tree
  | [] => []
  | t :: ts => t.preorder ++ preorderAll ts

end

/-- the text of a node, empty when it has none -/
def source (t : Tree) : Except Fault String :=
  match t.text with
  | none => .ok ""
  | some bytes =>
    match Text.Utf8.decode bytes with
    | .ok s => .ok s
    | .error fault => .error (.undecodable fault)

/-- the first child that is the field `name` -/
def fieldNamed? (t : Tree) (name : String) : Option Tree := t.children.find? fun c => c.field == some name

/-- the text of a field, empty when there is no such field -/
def fieldSource (t : Tree) (name : String) : Except Fault String :=
  match t.fieldNamed? name with
  | none => .ok ""
  | some c => c.source

def isFault (t : Tree) : Bool := t.kind == "ERROR" || t.missing

theorem preorder_eq (t : Tree) : t.preorder = t :: preorderAll t.children := by
  cases t
  simp [preorder]

theorem size_eq (t : Tree) : t.size = 1 + sizeAll t.children := by
  cases t
  simp [size]

theorem sizeAll_append (xs ys : List Tree) : sizeAll (xs ++ ys) = sizeAll xs + sizeAll ys := by
  induction xs with
  | nil => simp [sizeAll]
  | cons x xs ih => simp [sizeAll, ih]; omega

end Tree

/-! ## Places -/

/-- a node with the nodes above it, the nearest first -/
structure Place where
  node : Tree
  above : List Tree := []
  deriving Inhabited

namespace Place

def children (p : Place) : List Place := p.node.children.map fun c => ⟨c, p.node :: p.above⟩

/-- the top of the tree that the place is in -/
def root (p : Place) : Tree := p.above.getLastD p.node

/-- follow child positions downwards -/
def descend? (p : Place) : List Nat → Option Place
  | [] => some p
  | i :: rest => p.children[i]?.bind fun c => c.descend? rest

end Place

end SignalWiring
