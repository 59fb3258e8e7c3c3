/-
A tree of files, as a value.

Places in the tree are lists of names from its top. Paths are followed part by part: each part but the last must lead to
a folder, `..` leads one folder up and stays at the top there, and a path that starts at the top is followed from the top
like any other. There are no links, so a place has one path without `..`.

The operations are those of a file system: they return the changed tree, or the fault that stopped them. A tree knows the
refusals of `SystemFault` and no others. What else a file system may refuse is left out: a name that is too long or has a
NUL in it, a folder that may not be entered or changed, a device or a socket in place of a file, a disk that is full.
-/
import SignalWiring.Path

namespace SignalWiring

/-- why the file system refused -/
inductive SystemFault where
  | missing
  | denied
  | exists
  | notFolder
  | isFolder
  deriving DecidableEq, Repr, Inhabited

/-- number and wording of a refusal -/
def SystemFault.text : SystemFault → String
  | .missing => "[Errno 2] No such file or directory"
  | .denied => "[Errno 13] Permission denied"
  | .exists => "[Errno 17] File exists"
  | .notFolder => "[Errno 20] Not a directory"
  | .isFolder => "[Errno 21] Is a directory"

/-- a file with its bytes and whether it may be opened, or a folder of named trees -/
inductive FileTree where
  | file (bytes : List UInt8) (readable : Bool)
  | folder (entries : List (String × FileTree))
  deriving Inhabited

namespace FileTree

/-- names from the top of the tree -/
abbrev Place := List String

def empty : FileTree := .folder []

/-! ## Looking -/

def find? (n : String) : List (String × FileTree) → Option FileTree
  | [] => none
  | e :: rest => if e.1 = n then some e.2 else find? n rest

/-- what stands at a place -/
def at? : FileTree → Place → Option FileTree
  | t, [] => some t
  | .file _ _, _ :: _ => none
  | .folder es, n :: rest => (find? n es).bind fun t => t.at? rest

/-- follow `parts` from the place `here`; the last part need not exist -/
def locate (t : FileTree) : (here : Place) → List String → Except SystemFault Place
  | here, [] => .ok here
  | here, p :: rest =>
    match t.at? here with
    | some (.folder _) => if p = ".." then locate t here.dropLast rest else locate t (here ++ [p]) rest
    | some (.file _ _) => .error .notFolder
    | none => .error .missing

/-- what a path leads to -/
def get (t : FileTree) (p : Path) : Except SystemFault FileTree :=
  match locate t [] p.parts with
  | .error e => .error e
  | .ok place =>
    match t.at? place with
    | some found => .ok found
    | none => .error .missing

def isFolder (t : FileTree) (p : Path) : Bool :=
  match t.get p with
  | .ok (.folder _) => true
  | _ => false

def isFile (t : FileTree) (p : Path) : Bool :=
  match t.get p with
  | .ok (.file _ _) => true
  | _ => false

def read (t : FileTree) (p : Path) : Except SystemFault (List UInt8) :=
  match t.get p with
  | .error e => .error e
  | .ok (.folder _) => .error .isFolder
  | .ok (.file bytes readable) => if readable then .ok bytes else .error .denied

/-! ## Changing -/

/-- put `x` under the name `n`: in place when the name is there, else at the end -/
def putNamed (n : String) (x : FileTree) : List (String × FileTree) → List (String × FileTree)
  | [] => [(n, x)]
  | e :: rest => if e.1 = n then (n, x) :: rest else e :: putNamed n x rest

/-- the tree with `x` at a place whose folder exists; a file on the way is left as it is -/
def setAt : FileTree → Place → FileTree → FileTree
  | _, [], x => x
  | .file b r, _ :: _, _ => .file b r
  | .folder es, n :: rest, x =>
    match rest with
    | [] => .folder (putNamed n x es)
    | _ =>
      match find? n es with
      | some sub => .folder (putNamed n (sub.setAt rest x) es)
      | none => .folder es

def eraseAt : FileTree → Place → FileTree
  | t, [] => t
  | .file b r, _ :: _ => .file b r
  | .folder es, n :: rest =>
    match rest with
    | [] => .folder (es.filter fun e => e.1 ≠ n)
    | _ =>
      match find? n es with
      | some sub => .folder (putNamed n (sub.eraseAt rest) es)
      | none => .folder es

/-- write a file, new or in place of another file that may be opened -/
def write (t : FileTree) (p : Path) (bytes : List UInt8) : Except SystemFault FileTree :=
  match locate t [] p.parts with
  | .error e => .error e
  | .ok place =>
    match t.at? place with
    | some (.folder _) => .error .isFolder
    | some (.file _ readable) => if readable then .ok (t.setAt place (.file bytes true)) else .error .denied
    | none => .ok (t.setAt place (.file bytes true))

/-- make every missing folder on the way along `parts` from the place `here`, and what came of it; a file at the end
exists already, and so does one on the way once a folder was `made` -/
def makeFoldersFrom (t : FileTree) (made : Bool) : (here : Place) → List String → FileTree × Except SystemFault Unit
  | here, [] =>
    match t.at? here with
    | some (.file _ _) => (t, .error .exists)
    | _ => (t, .ok ())
  | here, p :: rest =>
    match t.at? here with
    | some (.file _ _) => (t, .error (if made then .exists else .notFolder))
    | _ =>
      if p = ".." then makeFoldersFrom t made here.dropLast rest
      else
        match t.at? (here ++ [p]) with
        | none => makeFoldersFrom (t.setAt (here ++ [p]) empty) true (here ++ [p]) rest
        | some _ => makeFoldersFrom t made (here ++ [p]) rest

/-- make a folder and those above it, unless they are there; those that were made stay when one cannot be -/
def makeFolders (t : FileTree) (p : Path) : FileTree × Except SystemFault Unit := t.makeFoldersFrom false [] p.parts

/-- the tree with a folder and those above it -/
def makeFolder (t : FileTree) (p : Path) : Except SystemFault FileTree :=
  (t.makeFolders p).2.map fun _ => (t.makeFolders p).1

/-- take away what a path leads to, if anything -/
def remove (t : FileTree) (p : Path) : FileTree :=
  match locate t [] p.parts with
  | .error _ => t
  | .ok place => t.eraseAt place

mutual

/-- every file below, with its place, folders in listing order -/
def filesFrom (here : Place) : FileTree → List (Place × List UInt8)
  | .file bytes _ => [(here, bytes)]
  | .folder es => entriesFrom here es

/-- every file in the entries of the folder at `here` -/
def entriesFrom (here : Place) : List (String × FileTree) → List (Place × List UInt8)
  | [] => []
  | (n, t) :: rest => filesFrom (here ++ [n]) t ++ entriesFrom here rest

end

def files (t : FileTree) : List (Place × List UInt8) := filesFrom [] t

/-! ## Laws -/

theorem find?_putNamed_self (n : String) (x : FileTree) (es : List (String × FileTree)) :
    find? n (putNamed n x es) = some x := by
  induction es with
  | nil => simp [putNamed, find?]
  | cons e rest ih =>
    by_cases h : e.1 = n
    · simp [putNamed, find?, h]
    · simp [putNamed, find?, h, ih]

theorem find?_putNamed_of_ne {n m : String} (h : m ≠ n) (x : FileTree) (es : List (String × FileTree)) :
    find? m (putNamed n x es) = find? m es := by
  induction es with
  | nil => simp [putNamed, find?, Ne.symm h]
  | cons e rest ih =>
    by_cases he : e.1 = n
    · simp [putNamed, find?, he, Ne.symm h]
    · simp [putNamed, find?, he, ih]

end FileTree

end SignalWiring
