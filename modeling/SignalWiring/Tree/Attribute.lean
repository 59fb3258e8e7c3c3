/-
Attributes of a declaration.

`attributeClass` resolves an attribute name as written to the simple name of its class: generic arguments at its end and
any qualification go away, and `Attribute` is appended unless the name ends with it. `attributeClasses` are the classes
of all attributes on a declaration, in source order, without those in lists that are aimed at something else.
-/
import SignalWiring.Text.Blank
import SignalWiring.Tree.Basic

namespace SignalWiring

/-! ## Names as written -/

/-- `cs` up to its first `<`, when it ends with `>` -/
def withoutArguments (cs : List Char) : List Char :=
  if cs.getLast? = some '>' && cs.contains '<' then cs.takeWhile (· != '<') else cs

/-- the characters before the first `::` of a reversed text -/
def beforeColons : List Char → List Char
  | [] => []
  | ':' :: ':' :: _ => []
  | c :: rest => c :: beforeColons rest

/-- what follows the last `::` and then the last dot -/
def lastSegment (cs : List Char) : List Char :=
  ((beforeColons cs.reverse).takeWhile (· != '.')).reverse

/-- the class that an attribute name stands for, empty when there is no name -/
def attributeClass (written : String) : String :=
  let name := String.ofList (Text.trim (lastSegment (withoutArguments (Text.trim written.toList))))
  if name = "" then ""
  else if "Attribute".toList.isSuffixOf name.toList then name
  else name ++ "Attribute"

/-! ## Attributes in a tree -/

namespace Tree

/-- targets of an attribute list that are not the declared type -/
def foreignTargets : List String := ["return", "param", "field", "property", "method", "event"]

def targetName (written : String) : String :=
  String.ofList (Text.trim (written.toList.reverse.dropWhile (· == ':')).reverse)

/-- the attribute list is aimed at something other than the declared type -/
def aimsElsewhere (list : Tree) : Except Fault Bool :=
  match list.children.find? fun c => c.kind == "attribute_target_specifier" with
  | none => .ok false
  | some specifier => specifier.source.map fun s => foreignTargets.contains (targetName s)

def nameKinds : List String := ["identifier", "qualified_name", "generic_name", "alias_qualified_name"]

/-- the name of an attribute as written: its name field, or else its first child that is a name -/
def attributeName (t : Tree) : Except Fault String := do
  let written ← t.fieldSource "name"
  if written ≠ "" then return written
  match t.children.find? fun c => nameKinds.contains c.kind with
  | none => return ""
  | some c => c.source

def listedClasses (list : Tree) : Except Fault (List String) := do
  if ← list.aimsElsewhere then return []
  let names ← (list.children.filter fun c => c.kind == "attribute").mapM attributeName
  return (names.map attributeClass).filter fun n => n ≠ ""

/-- the classes of the attributes on a declaration, in source order -/
def attributeClasses (declaration : Tree) : Except Fault (List String) := do
  let lists ← (declaration.children.filter fun c => c.kind == "attribute_list").mapM listedClasses
  return lists.flatten

/-- the declaration carries an attribute of class `marker` -/
def isMarked (declaration : Tree) (marker : String) : Except Fault Bool :=
  (attributeClasses declaration).map fun names => names.contains marker

def attributeClassesOf (declaration : Option Tree) : Except Fault (List String) :=
  match declaration with
  | none => .error (.absent "declaration must not be None")
  | some d => d.attributeClasses

def isMarkedOf (declaration : Option Tree) (marker : String) : Except Fault Bool :=
  match declaration with
  | none => .error (.absent "declaration must not be None")
  | some d => d.isMarked marker

end Tree

end SignalWiring
