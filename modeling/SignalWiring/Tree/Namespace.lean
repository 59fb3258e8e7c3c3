/-
Namespaces: which one a declaration lives in.

The namespaces around a declaration come first, outermost to innermost. Where there is none with a name, the last named
file-scoped namespace among the children of the root that start before the declaration counts.
-/
import SignalWiring.Tree.Basic

namespace SignalWiring

namespace Tree

/-- kind of a namespace that its declarations follow -/
def fileScopedKind : String := "file_scoped_namespace_declaration"

def isNamespace (t : Tree) : Bool := t.kind == "namespace_declaration" || t.kind == fileScopedKind

/-- names of the namespaces among the nodes above, nearest first -/
def enclosingNames : List Tree → Except Fault (List String)
  | [] => .ok []
  | t :: above => do
    if t.isNamespace then
      let name ← t.fieldSource "name"
      let rest ← enclosingNames above
      return if name = "" then rest else name :: rest
    else enclosingNames above

/-- the name of the last named file-scoped namespace before the first sibling that starts at `start` or after it -/
def precedingName (start : Int) : (found : String) → List Tree → Except Fault String
  | found, [] => .ok found
  | found, t :: rest =>
    if t.startByte ≥ start then .ok found
    else if t.kind == fileScopedKind then do
      let name ← t.fieldSource "name"
      precedingName start (if name = "" then found else name) rest
    else precedingName start found rest

end Tree

namespace Place

/-- the namespace around a place, empty for the global one -/
def namespaceName (p : Place) : Except Fault String := do
  let names ← Tree.enclosingNames p.above
  if names.isEmpty then Tree.precedingName p.node.startByte "" p.root.children
  else return Text.join "." names.reverse

def namespaceNameOf (p : Option Place) : Except Fault String :=
  match p with
  | none => .error (.absent "node must not be None")
  | some q => q.namespaceName

end Place

end SignalWiring
