/-
Source artifacts: one source file each, known by its file name.

`Artifact.read` reads a file: UTF-8, without a byte order mark at its start, and with every line ending as a line feed. A
file that is missing, forbidden or not UTF-8 makes the artifact unreadable; any other refusal of the file system stays
what it is.
-/
import SignalWiring.Digest.Sha256
import SignalWiring.Fault
import SignalWiring.Text.Split

namespace SignalWiring

/-- a source file with its text -/
@[ext]
structure Artifact where
  path : Path
  content : String
  named : path.name ≠ ""

instance : DecidableEq Artifact := fun _ _ => decidable_of_iff _ Artifact.ext_iff.symm

namespace Artifact

/-- an artifact from fields that may be missing -/
def make (path : Option Path) (content : Option String) : Except Fault Artifact :=
  match path with
  | none => .error (.absent "path must not be None")
  | some p =>
    if h : p.name = "" then .error (.invalid .unnamedPath)
    else
      match content with
      | none => .error (.absent "content must not be None")
      | some c => .ok ⟨p, c, h⟩

/-- the file name -/
def id (a : Artifact) : String := a.path.name

/-- digest of the text, by which a change is seen -/
def fingerprint (a : Artifact) : String := Sha256.hex (Text.Utf8.encode a.content)

def byteOrderMark : List UInt8 := [0xEF, 0xBB, 0xBF]

/-- the bytes without a byte order mark; a file that is only the start of one has no bytes -/
def withoutMark (bytes : List UInt8) : List UInt8 :=
  if byteOrderMark.isPrefixOf bytes then bytes.drop 3
  else if bytes.isPrefixOf byteOrderMark then []
  else bytes

def decode (bytes : List UInt8) : Except Text.Utf8.Fault String :=
  (Text.Utf8.decode (withoutMark bytes)).map fun s => String.ofList (Text.unixLines s.toList)

def read (files : FileTree) (p : Path) : Except Fault Artifact :=
  match files.read p with
  | .error .missing => .error (.unreadable p "file not found")
  | .error .denied => .error (.unreadable p "permission denied")
  | .error cause => .error (.system cause p)
  | .ok bytes =>
    match decode bytes with
    | .error fault => .error (.unreadable p s!"encoding error: {fault.message}")
    | .ok text => make (some p) (some text)

theorem id_ne_empty (a : Artifact) : a.id ≠ "" := a.named

end Artifact

end SignalWiring
