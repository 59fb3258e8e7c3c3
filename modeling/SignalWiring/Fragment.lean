/-
Fragments: companion sources, one per artifact.

`hintName` is the file name of a fragment: the name of its artifact with a marker before the extension, or after the
name when there is no extension.
-/
import SignalWiring.Fault

namespace SignalWiring

def hintName (artifact marker : String) : Except Fault String :=
  if artifact = "" then .error (Fault.emptyField "artifact_id")
  else
    let p := Path.ofString artifact
    if p.suffix = "" then .ok (artifact ++ marker) else .ok (p.stem ++ marker ++ p.suffix)

/-- the source emitted for an artifact, and whether it carries the tables and the connect methods -/
@[ext]
structure Fragment where
  artifact : String
  hint : String
  source : String
  isRoot : Bool
  artifact_ne : artifact ≠ ""
  hint_ne : hint ≠ ""
  hint_ne_artifact : hint ≠ artifact

instance : DecidableEq Fragment := fun _ _ => decidable_of_iff _ Fragment.ext_iff.symm

/-- a fragment from names that may break an invariant -/
def Fragment.make (artifact hint source : String) (isRoot : Bool) : Except Fault Fragment :=
  if ha : artifact = "" then .error (Fault.emptyField "artifact_id")
  else if hh : hint = "" then .error (Fault.emptyField "hint_name")
  else if hd : hint = artifact then .error (.invalid (.hintIsArtifact artifact))
  else .ok ⟨artifact, hint, source, isRoot, ha, hh, hd⟩

end SignalWiring
