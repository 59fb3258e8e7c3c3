/-
Writing fragments into an output folder.

A file that holds the bytes of its fragment already is left alone. The folder is made when the first file is written.
Two fragments with the same output name stop the writing at the second one.
-/
import SignalWiring.Fragment
import SignalWiring.Log

namespace SignalWiring

/-- which output files have changed and which have not -/
structure WriteReport where
  written : List Path := []
  unchanged : List Path := []
  deriving DecidableEq

/-- the tree after writing, what came of it, and what was reported on the way -/
structure Writing where
  files : FileTree
  outcome : Except Fault WriteReport
  records : List Log.Record := []

namespace Writer

/-- the folder to write to, which must be given -/
def folder (out : Option Path) : Except Fault Path :=
  match out with
  | none => .error (.absent "out_dir must not be None")
  | some p => .ok p

/-- the file holds the bytes already; a file that cannot be read is a fault -/
def holds (files : FileTree) (target : Path) (bytes : List UInt8) : Except Fault Bool :=
  if files.isFile target then
    match files.read target with
    | .ok found => .ok (found == bytes)
    | .error cause => .error (.system cause target)
  else .ok false

/-- make the folder and put the bytes into the file; folders that were made stay when that fails -/
def put (files : FileTree) (out target : Path) (bytes : List UInt8) : FileTree × Except Fault Unit :=
  match files.makeFolders out with
  | (made, .error cause) => (made, .error (.system cause out))
  | (made, .ok ()) =>
    match made.write target bytes with
    | .error cause => (made, .error (.system cause target))
    | .ok after => (after, .ok ())

def writtenRecord (target : Path) (f : Fragment) : Log.Record :=
  { level := .debug, event := "fragment_written",
    fields := [("path", .text target.toString), ("artifact", .text f.artifact)] }

/-- write the fragments whose output names are not among `seen` -/
def writeFrom (out : Path) : (seen : List String) → FileTree → List Fragment → Writing
  | _, files, [] => ⟨files, .ok {}, []⟩
  | seen, files, f :: rest =>
    if seen.contains f.hint then ⟨files, .error (.invalid (.repeatedOutput f.hint)), []⟩
    else
      let target := out / f.hint
      let bytes := Text.Utf8.encode f.source
      match holds files target bytes with
      | .error fault => ⟨files, .error fault, []⟩
      | .ok true =>
        let w := writeFrom out (f.hint :: seen) files rest
        { w with outcome := w.outcome.map fun r => { r with unchanged := target :: r.unchanged } }
      | .ok false =>
        match put files out target bytes with
        | (after, .error fault) => ⟨after, .error fault, []⟩
        | (after, .ok ()) =>
          let w := writeFrom out (f.hint :: seen) after rest
          { w with
            outcome := w.outcome.map fun r => { r with written := target :: r.written }
            records := writtenRecord target f :: w.records }

/-- write fragments into the folder `out` -/
def write (out : Path) (files : FileTree) (fragments : List Fragment) : Writing := writeFrom out [] files fragments

end Writer

end SignalWiring
