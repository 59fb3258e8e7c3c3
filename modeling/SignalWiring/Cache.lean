/-
A cache in front of an extractor.

The last successful extraction of each artifact is kept with the fingerprint of its text. As long as the fingerprint
stays the same the extraction is given again and the extractor is not asked. Failures are never kept.
-/
import SignalWiring.Extraction
import SignalWiring.Ledger

namespace SignalWiring

/-- what an extractor answers, and what it reported while at work -/
structure Scanned where
  outcome : Except Fault Extraction
  records : List Log.Record := []

/-- something that scans artifacts -/
abbrev Extractor := Artifact → Scanned

/-- the extractor that reads and scans, and reports what it found -/
def Extractor.reading (read : SourceReader) (config : Config) : Extractor := fun a =>
  match extract read config a with
  | .ok e => ⟨.ok e, e.records⟩
  | .error fault => ⟨.error fault, []⟩

/-- extractions with fingerprints by artifact, and how often they were of use -/
structure Cache where
  entries : Ledger String (String × Extraction) := {}
  hits : Nat := 0
  misses : Nat := 0

namespace Cache

def empty : Cache := {}

instance : Inhabited Cache := ⟨empty⟩

/-- an empty cache in front of an extractor that may not be there -/
def inFrontOf (inner : Option Extractor) : Except Fault Cache :=
  match inner with
  | none => .error (.absent "_inner extractor must not be None")
  | some _ => .ok empty

/-- the extraction kept for an artifact, if its text is still the same -/
def lookup (c : Cache) (a : Artifact) : Option Extraction :=
  match c.entries.get? a.id with
  | some (fingerprint, e) => if fingerprint = a.fingerprint then some e else none
  | none => none

/-- keep an extraction that the extractor gave -/
def keep (c : Cache) (a : Artifact) (e : Extraction) : Cache :=
  { c with entries := c.entries.put a.id (a.fingerprint, e), misses := c.misses + 1 }

/-- scan an artifact, unless what is kept of it will do -/
def extract (inner : Extractor) (c : Cache) (a : Artifact) : Cache × Scanned :=
  match c.lookup a with
  | some e => ({ c with hits := c.hits + 1 }, ⟨.ok e, []⟩)
  | none =>
    let scanned := inner a
    match scanned.outcome with
    | .ok e => (c.keep a e, scanned)
    | .error _ => (c, scanned)

def extractOf (inner : Extractor) (c : Cache) (a : Option Artifact) : Cache × Scanned :=
  match a with
  | none => (c, ⟨.error .memberless, []⟩)
  | some x => c.extract inner x

def invalidate (c : Cache) (artifact : String) : Cache := { c with entries := c.entries.erase artifact }

/-- forget everything, and start counting again -/
def clear (_ : Cache) : Cache := empty

/-- number of artifacts kept -/
def size (c : Cache) : Nat := c.entries.size

end Cache

end SignalWiring
