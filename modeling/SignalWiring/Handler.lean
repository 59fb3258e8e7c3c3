/-
Handlers: the marked delegates of a container.

A handler has the name of its delegate, the event name that starts it, and parameter names that are pairwise different
and not empty; all of that is part of the type. Where it was declared does not count when handlers are compared.
-/
import SignalWiring.Location

namespace SignalWiring

/-- a marked delegate -/
@[ext]
structure Handler where
  name : String
  event : String
  parameters : List String
  location : Option Location
  event_ne : event ≠ ""
  event_prefix : event.toList <+: name.toList
  parameters_distinct : parameters.Nodup
  parameters_named : ∀ p ∈ parameters, p ≠ ""

instance : DecidableEq Handler := fun _ _ => decidable_of_iff _ Handler.ext_iff.symm

/-- `name` without `suffix` at its end; only one occurrence is taken off -/
def stripSuffix (name suffix : String) : Except Fault String :=
  if suffix = "" then .error (Fault.emptyField "suffix")
  else
    match Text.dropSuffix? suffix.toList name.toList with
    | none => .error (.invalid (.suffixMissing name suffix))
    | some rest => .ok (String.ofList rest)

namespace Handler

/-- a handler from names that may break an invariant -/
def make (name event : String) (parameters : List String) (location : Option Location) : Except Fault Handler :=
  if name = "" then .error (Fault.emptyField "handler_name")
  else if he : event = "" then .error (Fault.emptyField "event_name")
  else if hp : event.toList <+: name.toList then
    if hd : parameters.Nodup then
      if hn : ∀ p ∈ parameters, p ≠ "" then .ok ⟨name, event, parameters, location, he, hp, hd, hn⟩
      else .error (.invalid (.unnamedParameter name))
    else .error (.invalid (.repeatedParameter name))
  else .error (.invalid (.eventNotPrefix event name))

/-- a handler whose event name is its delegate's name without `suffix` -/
def ofName (name suffix : String) (parameters : List String) (location : Option Location) : Except Fault Handler := do
  let event ← stripSuffix name suffix
  make name event parameters location

/-- equal in all but where they were declared -/
def same (a b : Handler) : Bool := a.name = b.name && a.event = b.event && a.parameters = b.parameters

end Handler

end SignalWiring
