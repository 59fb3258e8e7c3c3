/-
Configuration of the generator.

A `Draft` holds settings as they were given; `Draft.accept` checks them one after the other and gives a `Config`, whose
type carries what was checked. `Config.ofPairs` reads named settings: `-` and `_` are the same in a name, and the last
value of a name wins.
-/
import SignalWiring.Fault
import SignalWiring.Setting
import SignalWiring.Text.Identifier

namespace SignalWiring

/-- how discovered events are ordered before they are numbered -/
inductive IdOrder where
  /-- by name -/
  | sorted
  /-- as the registry lists them -/
  | discovery
  deriving DecidableEq, Repr, Inhabited

def IdOrder.label : IdOrder → String
  | .sorted => "sorted"
  | .discovery => "discovery"

/-- the order with a name, whatever the case of its letters -/
def IdOrder.ofLabel? (s : String) : Option IdOrder :=
  let lower := String.ofList (s.toList.map Char.toLower)
  [IdOrder.sorted, .discovery].find? fun o => o.label == lower

inductive ConfigKey where
  | container
  | marker
  | suffix
  | root
  | dispatch
  | order
  | generated
  | workers
  deriving DecidableEq, Repr, Inhabited

namespace ConfigKey

def label : ConfigKey → String
  | .container => "container_name"
  | .marker => "marker_attribute"
  | .suffix => "handler_suffix"
  | .root => "root_artifact"
  | .dispatch => "dispatch_method"
  | .order => "id_ordering"
  | .generated => "generated_suffix"
  | .workers => "max_workers"

def all : List ConfigKey := [.container, .marker, .suffix, .root, .dispatch, .order, .generated, .workers]

def ofLabel? (s : String) : Option ConfigKey := all.find? fun k => k.label == s

/-- the setting with a name in which `-` may stand for `_` -/
def ofName? (s : String) : Option ConfigKey :=
  ofLabel? (String.ofList (s.toList.map fun c => if c = '-' then '_' else c))

end ConfigKey

/-! ## Configurations -/

/-- an accepted configuration -/
structure Config where
  /-- class name of a container -/
  container : String
  /-- attribute class that marks a handler -/
  marker : String
  /-- ending of a handler's name, after its event name -/
  suffix : String
  /-- file name whose fragment carries the tables and the connect methods -/
  root : Setting
  /-- method that every closure calls -/
  dispatch : String
  order : IdOrder
  /-- what stands before the extension of an output file -/
  generated : String
  /-- number of extraction workers -/
  workers : Setting
  container_ok : Text.isIdentifier container = true
  marker_ok : Text.isIdentifier marker = true
  marker_attribute : "Attribute".toList.isSuffixOf marker.toList = true
  suffix_ok : Text.isIdentifier suffix = true
  dispatch_ok : Text.isIdentifier dispatch = true
  generated_ok : generated.toList.head? = some '.' ∧ 2 ≤ generated.length

/-- extraction runs on several workers -/
def Config.parallel (c : Config) : Bool := c.workers.aboveOne

def Config.isRoot (c : Config) (artifact : String) : Bool := c.root.isText artifact

/-! ## Drafts -/

/-- settings that are not checked yet -/
structure Draft where
  container : Setting := .text "Behavior"
  marker : Setting := .text "SignalAttribute"
  suffix : Setting := .text "EventHandler"
  root : Setting := .text "Behavior.cs"
  dispatch : Setting := .text "OnSignal"
  order : Except Setting IdOrder := .ok .sorted
  generated : Setting := .text ".g"
  workers : Setting := .null

namespace Draft

def set (d : Draft) (k : ConfigKey) (s : Setting) : Draft :=
  match k with
  | .container => { d with container := s }
  | .marker => { d with marker := s }
  | .suffix => { d with suffix := s }
  | .root => { d with root := s }
  | .dispatch => { d with dispatch := s }
  | .order => { d with order := .error s }
  | .generated => { d with generated := s }
  | .workers => { d with workers := s }

def refuse (k : ConfigKey) (reason : String) : Fault := .setting k.label reason

/-- the fault of a setting of the generator that shows the value, or the one of a value that cannot be shown -/
def refuseShown (k : ConfigKey) (reason : String) (s : Setting) : Fault :=
  if s.overlong then .invalid (.tooManyDigits Decimal.maxDigits) else refuse k s!"{reason}, got {s.shown}"

def identifier (k : ConfigKey) (s : Setting) : Except Fault { t : String // Text.isIdentifier t = true } :=
  let fault := refuseShown k "must be a C# identifier" s
  match s with
  | .text t => if h : Text.isIdentifier t = true then .ok ⟨t, h⟩ else .error fault
  | _ => .error fault

/-- the root artifact must hold something, and no slash of either kind -/
def checkRoot (s : Setting) : Except Fault Unit :=
  let fault := refuseShown .root "must be a bare file name" s
  if s.holds then
    match s.contains? '/', s.contains? '\\' with
    | some slash, some backslash => if slash || backslash then .error fault else .ok ()
    | _, _ => .error .mistyped
  else .error fault

/-- the output marker starts with a dot and has something after it -/
def checkGenerated (s : Setting) : Except Fault { t : String // t.toList.head? = some '.' ∧ 2 ≤ t.length } :=
  match s with
  | .text t =>
    if h : t.toList.head? = some '.' ∧ 2 ≤ t.length then .ok ⟨t, h⟩
    else .error (refuseShown .generated "must look like '.g'" s)
  | _ => .error .memberless

/-- the number of workers is missing or at least one -/
def checkWorkers (s : Setting) : Except Fault Unit :=
  match s with
  | .null => .ok ()
  | _ =>
    match s.belowOne? with
    | none => .error .mistyped
    | some true => .error (refuseShown .workers "must be >= 1" s)
    | some false => .ok ()

/-- check the settings, identifiers first -/
def accept (d : Draft) : Except Fault Config := do
  let container ← identifier .container d.container
  let marker ← identifier .marker d.marker
  let suffix ← identifier .suffix d.suffix
  let dispatch ← identifier .dispatch d.dispatch
  if hm : "Attribute".toList.isSuffixOf marker.1.toList = true then
    checkRoot d.root
    match d.order with
    | .error s => .error (refuse .order s!"must be IdOrdering, got {s.typeName}")
    | .ok order =>
      let generated ← checkGenerated d.generated
      checkWorkers d.workers
      return { container := container.1, marker := marker.1, suffix := suffix.1, root := d.root,
               dispatch := dispatch.1, order := order, generated := generated.1, workers := d.workers,
               container_ok := container.2, marker_ok := marker.2, marker_attribute := hm, suffix_ok := suffix.2,
               dispatch_ok := dispatch.2, generated_ok := generated.2 }
  else .error (refuse .marker s!"must end with 'Attribute', got {Text.quote marker.1}")

/-- settings under names of the generator; an unknown name is a fault -/
def ofPairs : List (String × Setting) → Draft → Except Fault Draft
  | [], d => .ok d
  | (name, s) :: rest, d =>
    match ConfigKey.ofName? name with
    | none => .error (Fault.raised (Fault.forSetting name "unknown key"))
    | some k => ofPairs rest (d.set k s)

/-- a text names an order; every other value is left for the checks -/
def readOrder (d : Draft) : Except Fault Draft :=
  match d.order with
  | .error (.text s) =>
    match IdOrder.ofLabel? s with
    | some o => .ok { d with order := .ok o }
    | none => .error (refuse .order s!"expected one of sorted, discovery, got {Text.quote s}")
  | _ => .ok d

/-- the number of workers is missing or a whole number -/
def readWorkers (d : Draft) : Except Fault Unit :=
  match d.workers with
  | .null | .whole _ => .ok ()
  | s => .error (refuseShown .workers "must be an integer" s)

end Draft

namespace Config

/-- the configuration of named settings, in the order in which they were given -/
def ofPairs (pairs : List (String × Setting)) : Except Fault Config := do
  let d ← Draft.ofPairs pairs {}
  let d ← d.readOrder
  d.readWorkers
  d.accept

/-- the configuration of settings under their exact names, which are not read any further -/
def ofArguments (pairs : List (String × Setting)) : Except Fault Config := do
  let set (d : Draft) (pair : String × Setting) : Except Fault Draft :=
    match ConfigKey.ofLabel? pair.1 with
    | none => .error .mistyped
    | some k => .ok (d.set k pair.2)
  let d ← pairs.foldlM set {}
  d.accept

/-- the configuration when nothing is set -/
def standard : Config where
  container := "Behavior"
  marker := "SignalAttribute"
  suffix := "EventHandler"
  root := .text "Behavior.cs"
  dispatch := "OnSignal"
  order := .sorted
  generated := ".g"
  workers := .null
  container_ok := by decide +kernel
  marker_ok := by decide +kernel
  marker_attribute := by decide +kernel
  suffix_ok := by decide +kernel
  dispatch_ok := by decide +kernel
  generated_ok := by decide +kernel

instance : Inhabited Config := ⟨standard⟩

end Config

end SignalWiring
