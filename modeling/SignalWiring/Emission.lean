/-
Emission of companion sources.

A fragment is put together from slots: fields, then factories, then methods, inside a partial class. Every fragment has
one factory for each handler of its own artifact. The root fragment has besides the two lookup tables and the two methods
that connect and disconnect, each of which has one block for every built-in event and one for every discovered event of
the table. The parts are data of their own, and each has its text.

Numbers may have a limit on the digits that are written out (`Decimal.maxDigits` for a table from outside); then a root
fragment whose table has a longer identifier is refused. A run numbers its events from ten on, and needs no limit.
-/
import SignalWiring.Config
import SignalWiring.Context
import SignalWiring.Fragment
import SignalWiring.IdTable

namespace SignalWiring.Emission

/-! ## Parts -/

/-- parameters as they are passed on after the signal: each with a comma before it -/
def forwarded (parameters : List String) : String :=
  if parameters.isEmpty then "" else ", " ++ Text.join ", " parameters

/-- the method that makes the closure of a handler -/
structure Factory where
  handler : String
  event : String
  parameters : List String
  dispatch : String
  deriving DecidableEq, Repr

def Factory.ofHandler (dispatch : String) (h : Handler) : Factory := ⟨h.name, h.event, h.parameters, dispatch⟩

def Factory.text (f : Factory) : String :=
  let parameters := Text.join ", " f.parameters
  s!"    private {f.handler} Get{f.handler}()\n    \x7b\n" ++
    s!"        return ({parameters}) => {f.dispatch}(SignalName.{f.event}{forwarded f.parameters});\n    \x7d"

/-- one block of a connect or disconnect method -/
inductive Block where
  /-- a built-in event, bound to a closure that calls `dispatch` -/
  | builtin (constant member : String) (parameters : List String) (dispatch : String)
  /-- a discovered event, bound to what the factory of `handler` returns -/
  | discovered (event handler : String)
  deriving DecidableEq, Repr

def Block.ofBuiltin (dispatch : String) (e : BuiltinEvent) : Block := .builtin e.constant e.member e.parameters dispatch

def Block.ofEvent (suffix event : String) : Block := .discovered event (event ++ suffix)

def Block.text (operator : String) : Block → String
  | .builtin constant member parameters dispatch =>
    let listed := Text.join ", " parameters
    s!"        if ({constant}.Equals(signal))\n        \x7b\n" ++
      s!"            {member} {operator} ({listed}) => {dispatch}({constant}{forwarded parameters});\n        \x7d"
  | .discovered event handler =>
    s!"        if (SignalName.{event}.Equals(signal))\n        \x7b\n" ++
      s!"            {event} {operator} Get{handler}();\n        \x7d"

/-- a method with one block for each event -/
structure BindingMethod where
  name : String
  operator : String
  blocks : List Block
  deriving DecidableEq, Repr

def BindingMethod.text (m : BindingMethod) : String :=
  let blocks := Text.join "\n\n" (m.blocks.map (Block.text m.operator))
  s!"    private void {m.name}(Godot.StringName signal)\n    \x7b\n{blocks}\n    \x7d"

/-- a lookup table with the written forms of its keys and values -/
structure LookupTable where
  keyType : String
  valueType : String
  name : String
  entries : List (String × String)
  deriving DecidableEq, Repr

def LookupTable.entryText (e : String × String) : String := s!"        \x7b {e.1}, {e.2} \x7d,"

def LookupTable.text (t : LookupTable) : String :=
  let types := s!"System.Collections.Generic.Dictionary<{t.keyType}, {t.valueType}>"
  let entries := Text.join "\n" (t.entries.map LookupTable.entryText)
  s!"    public static readonly {types} {t.name} = new()\n    \x7b\n{entries}\n    \x7d;"

def nameTable (t : IdTable) : LookupTable :=
  ⟨"string", "int", "SignalName2Id", t.items.map fun e => (Text.literal e.2, toString e.1)⟩

def idTable (t : IdTable) : LookupTable :=
  ⟨"int", "string", "SignalId2Name", t.items.map fun e => (toString e.1, Text.literal e.2)⟩

/-! ## Slots -/

/-- a fragment under construction -/
structure Slots where
  artifact : String
  namespaceName : String
  container : String
  fields : List String := []
  factories : List String := []
  methods : List String := []
  artifact_ne : artifact ≠ ""
  container_ne : container ≠ ""

namespace Slots

/-- empty slots, from names that may be missing -/
def make (artifact : String) (namespaceName : Option String) (container : String) : Except Fault Slots :=
  if ha : artifact = "" then .error (Fault.emptyField "artifact_id")
  else if hc : container = "" then .error (Fault.emptyField "container")
  else
    match namespaceName with
    | none => .error (.absent "namespace must not be None")
    | some n => .ok { artifact := artifact, namespaceName := n, container := container, artifact_ne := ha, container_ne := hc }

def addField (s : Slots) (text : String) : Slots := { s with fields := s.fields ++ [text] }

def addFactory (s : Slots) (text : String) : Slots := { s with factories := s.factories ++ [text] }

def addMethod (s : Slots) (text : String) : Slots := { s with methods := s.methods ++ [text] }

def header (artifact : String) : String :=
  s!"// <auto-generated>\n//     Generated by behaviorgen from {artifact}. Do not edit.\n// </auto-generated>"

/-- the class with its members; slots that hold nothing leave no trace -/
def classText (s : Slots) : String :=
  let body := Text.join "\n\n" (s.fields ++ s.factories ++ s.methods)
  let opening := s!"public partial class {s.container}\n\x7b"
  Text.join "\n" ([opening] ++ (if body = "" then [] else [body]) ++ ["\x7d"])

/-- text of the fragment; it ends with exactly one line feed -/
def build (s : Slots) : String :=
  let space := if s.namespaceName = "" then [] else [s!"namespace {s.namespaceName};"]
  Text.join "\n\n" ([header s.artifact] ++ space ++ [s.classText]) ++ "\n"

end Slots

/-! ## Rendering -/

/-- what fragments are rendered with -/
structure Renderer where
  config : Config := Config.standard
  builtins : List BuiltinEvent := BuiltinEvent.all

namespace Renderer

/-- the blocks of both methods: built-in events, then the discovered ones of the table -/
def blocks (r : Renderer) (table : IdTable) : List Block :=
  r.builtins.map (Block.ofBuiltin r.config.dispatch) ++ table.discoveredNames.map (Block.ofEvent r.config.suffix)

def connect (r : Renderer) (table : IdTable) : BindingMethod := ⟨"ConnectSignal", "+=", r.blocks table⟩

def disconnect (r : Renderer) (table : IdTable) : BindingMethod := ⟨"DisconnectSignal", "-=", r.blocks table⟩

def factories (r : Renderer) (c : Context) : List Factory := c.handlers.map (Factory.ofHandler r.config.dispatch)

def slots (r : Renderer) (c : Context) (isRoot : Bool) (table : IdTable) : Slots where
  artifact := c.artifact
  namespaceName := c.namespaceName
  container := r.config.container
  fields := if isRoot then [(nameTable table).text, (idTable table).text] else []
  factories := (r.factories c).map Factory.text
  methods := if isRoot then [(r.connect table).text, (r.disconnect table).text] else []
  artifact_ne := c.artifact_ne
  container_ne := Text.ne_empty_of_isIdentifier r.config.container_ok

/-- the identifiers that a fragment shows -/
def shown (isRoot : Bool) (table : IdTable) : List Int := if isRoot then table.items.map Prod.fst else []

/-- identifiers of at most so many digits can be written out; without a limit all can -/
def checkDigits : (limit : Option Nat) → List Int → Except Fault Unit
  | none, _ => .ok ()
  | some digits, ids => if ids.any (Decimal.overlong digits) then .error (.invalid (.tooManyDigits digits)) else .ok ()

/-- text of a fragment; every event of the context must be in the table -/
def render (r : Renderer) (c : Context) (isRoot : Bool) (table : IdTable) (limit : Option Nat := none) :
    Except Fault String := do
  let _ ← c.events.mapM table.idOf
  checkDigits limit (shown isRoot table)
  return (r.slots c isRoot table).build

def renderOf (r : Renderer) (c : Option Context) (isRoot : Bool) (table : Option IdTable) : Except Fault String :=
  match c, table with
  | none, _ => .error (.absent "context must not be None")
  | some _, none => .error (.absent "table must not be None")
  | some x, some t => r.render x isRoot t Decimal.maxDigits

/-- the fragment of a context; the configuration decides whether it is the root one -/
def renderFragment (r : Renderer) (c : Context) (table : IdTable) (limit : Option Nat := none) : Except Fault Fragment := do
  let isRoot := r.config.isRoot c.artifact
  let hint ← hintName c.artifact r.config.generated
  let source ← r.render c isRoot table limit
  Fragment.make c.artifact hint source isRoot

/-- `renderFragment` of a context and a table that may not be there -/
def renderFragmentOf (r : Renderer) (c : Option Context) (table : Option IdTable) : Except Fault Fragment :=
  match c, table with
  | none, _ => .error .memberless
  | some x, some t => r.renderFragment x t Decimal.maxDigits
  | some x, none => do
    let _ ← hintName x.artifact r.config.generated
    .error (.absent "table must not be None")

end Renderer

end SignalWiring.Emission
