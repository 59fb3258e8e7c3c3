/-
Configuration files.

A configuration file is a TOML document. The settings of the generator are in the table `behaviorgen` of its table
`tool`; a document without that table leaves every setting as it is by default.
-/
import SignalWiring.Config
import SignalWiring.Toml.Document

namespace SignalWiring.ConfigFile

/-- name of the table of settings in the table `tool` -/
def tableName : String := "behaviorgen"

def ofDocument (document : Toml.Table) : Except Fault Config :=
  match document.lookup "tool" with
  | none => Config.ofPairs []
  | some (.table tools) =>
    match tools.lookup tableName with
    | none => Config.ofPairs []
    | some (.table settings) => Config.ofPairs settings
    | some _ => .error (.setting s!"tool.{tableName}" "must be a table")
  | some _ => .error .memberless

/-- the configuration in a file that the fault messages call `path` -/
def ofBytes (path : Path) (bytes : List UInt8) : Except Fault Config :=
  match Text.Utf8.decode bytes with
  | .error cause => .error (.undecodable cause)
  | .ok text =>
    match Toml.parse text with
    -- where and how the text goes wrong, which the wording would add, is left out
    | .error .malformed => .error (.setting path.toString "invalid TOML")
    | .error (.overlong digits) => .error (.invalid (.tooLongNumeral Decimal.maxDigits digits))
    | .ok document => ofDocument document

def load (files : FileTree) (path : Path) : Except Fault Config :=
  match files.read path with
  | .error .missing => .error (.setting path.toString "file not found")
  | .error cause => .error (.system cause path)
  | .ok bytes => ofBytes path bytes

end SignalWiring.ConfigFile
