/-
Discovery of sources.

Every file below the root with the extension of sources counts, unless its name ends as that of a generated file or it
lies in an excluded folder. The result is sorted by path.
-/
import SignalWiring.Fault

namespace SignalWiring.Discovery

/-- names of folders that hold no sources -/
def standardExcludes : List String :=
  [".git", ".godot", ".import", ".mono", ".vs", ".vscode", ".idea", "bin", "obj", "addons"]

def sourceSuffix : String := ".cs"

def isGeneratedName (marker name : String) : Bool := (marker ++ sourceSuffix).toList.isSuffixOf name.toList

def isGenerated (marker : String) (p : Path) : Bool := isGeneratedName marker p.name

def isSourceName (marker name : String) : Bool :=
  (Path.splitName name).2 == sourceSuffix && !isGeneratedName marker name

mutual

/-- the sources in what is called `name` in the folder `here` -/
def inEntry (exclude : List String) (marker : String) (here : Path) (name : String) : FileTree → List Path
  | .file _ _ => if isSourceName marker name then [here / name] else []
  | .folder es => if exclude.contains name then [] else inEntries exclude marker (here / name) es

/-- the sources among the entries of the folder `here` -/
def inEntries (exclude : List String) (marker : String) (here : Path) : List (String × FileTree) → List Path
  | [] => []
  | (name, t) :: rest => inEntry exclude marker here name t ++ inEntries exclude marker here rest

end

/-- the sources below a root, sorted by path -/
def discover (files : FileTree) (root : Path) (exclude : List String) (marker : String) : Except Fault (List Path) :=
  match files.get root with
  | .ok (.folder es) => .ok ((inEntries exclude marker root es).mergeSort Path.le)
  | _ => .error (.rootNotFolder root)

end SignalWiring.Discovery
