/-
TOML documents.

A document is a table that grows statement by statement. `Draft` holds the table with what may not be touched any more:
`declared` are the tables that a header has opened or that a dotted key has made, and no header opens them again;
`closed` are the lists and tables written as values, with all that lies below them. The tables that dotted keys make are
declared only when the next header comes.

`parse` gives the table of a document, or says why there is none: the first flaw that is met on the way counts.
-/
import SignalWiring.Ledger
import SignalWiring.Toml.Scalar

namespace SignalWiring.Toml

/-- entries in the order in which their keys were first written -/
abbrev Table := List (String × Setting)

/-- change the table at the end of a path: tables missing on the way are made, and of a list of tables the last counts if
`lists` says so -/
def changeAt (lists : Bool) (change : Table → Option Table) : List String → Table → Option Table
  | [], t => change t
  | k :: rest, t =>
    match t.lookup k with
    | none => (changeAt lists change rest []).map fun sub => t ++ [(k, .table sub)]
    | some (.table old) => (changeAt lists change rest old).map fun sub => putEntry k (.table sub) t
    | some (.list items) =>
      match lists, items.getLast? with
      | true, some (.table old) =>
        (changeAt lists change rest old).map fun sub => putEntry k (.list (items.dropLast ++ [.table sub])) t
      | _, _ => none
    | some _ => none

def addEntry (k : String) (v : Setting) (t : Table) : Option Table :=
  if (t.lookup k).isSome then none else some (t ++ [(k, v)])

/-- a new table at the end of a list of tables, which is made when it is missing -/
def addItem (k : String) (t : Table) : Option Table :=
  match t.lookup k with
  | none => some (t ++ [(k, .list [.table []])])
  | some (.list items) => some (putEntry k (.list (items ++ [.table []])) t)
  | some _ => none

/-- a list or a table -/
def isNest : Setting → Bool
  | .list _ | .table _ => true
  | _ => false

/-- one of the paths is the start of `path` -/
def covers (paths : List (List String)) (path : List String) : Bool := paths.any fun p => p.isPrefixOf path

/-- an entry written under a key inside a table that is a value; `closed` are the keys of its nests so far -/
def writeInline (closed : List (List String)) (t : Table) (path : List String) (v : Setting) : Option Table :=
  if covers closed path then none
  else changeAt false (addEntry (path.getLastD "") v) path.dropLast t

/-! ## Values -/

mutual

/-- a value; every step of the three readers takes one from their first number -/
def value : Nat → Scan Setting
  | 0, _ => .error .malformed
  | n + 1, cs =>
    match cs with
    | '[' :: rest => do
      let (vs, rest) ← items n (← required (skipLines false rest))
      return (.list vs, rest)
    | '{' :: rest =>
      match skipSpaces rest with
      | '}' :: after => .ok (.table [], after)
      | rest => (entries n [] [] rest).map fun p => (.table p.1, p.2)
    | _ => scalar cs

def items : Nat → Scan (List Setting)
  | 0, _ => .error .malformed
  | n + 1, cs =>
    match cs with
    | ']' :: rest => .ok ([], rest)
    | _ => do
      let (v, rest) ← value n cs
      match ← required (skipLines false rest) with
      | ']' :: after => return ([v], after)
      | ',' :: after =>
        let (vs, after) ← items n (← required (skipLines false after))
        return (v :: vs, after)
      | _ => .error .malformed

/-- the entries of a table that is a value, and its end -/
def entries : Nat → List (List String) → Table → Scan Table
  | 0, _, _, _ => .error .malformed
  | n + 1, closed, t, cs =>
    match key cs with
    | some (path, '=' :: rest) => do
      let (v, rest) ← value n (skipSpaces rest)
      let t ← required (writeInline closed t path v)
      match skipSpaces rest with
      | '}' :: after => return (t, after)
      | ',' :: after => entries n (if isNest v then path :: closed else closed) t (skipSpaces after)
      | _ => .error .malformed
    | _ => .error .malformed

end

/-! ## Statements -/

/-- a document that is being read -/
structure Draft where
  table : Table := []
  declared : List (List String) := []
  closed : List (List String) := []
  /-- what dotted keys have made since the last header -/
  pending : List (List String) := []
  /-- the table that entries go to -/
  header : List String := []

namespace Draft

/-- what dotted keys have made is declared now -/
def settle (d : Draft) : Draft := { d with declared := d.pending ++ d.declared, pending := [] }

/-- entries go to the table at `path` from now on -/
def openTable (d : Draft) (path : List String) : Option Draft :=
  if d.declared.contains path || covers d.closed path then none
  else
    (changeAt true some path d.table).map fun t =>
      { d with table := t, declared := path :: d.declared, header := path }

/-- entries go to a new table at the end of the list at `path` from now on; what lay below the list is free again -/
def openItem (d : Draft) (path : List String) : Option Draft :=
  if covers d.closed path then none
  else
    (changeAt true (addItem (path.getLastD "")) path.dropLast d.table).map fun t =>
      { d with table := t, header := path,
               declared := path :: d.declared.filter fun p => !path.isPrefixOf p,
               closed := d.closed.filter fun p => !path.isPrefixOf p }

/-- the tables that a dotted key goes through -/
def through (header path : List String) : List (List String) :=
  (List.range (path.length - 1)).map fun i => header ++ path.take (i + 1)

/-- an entry under a key in the table of the last header -/
def write (d : Draft) (path : List String) (v : Setting) : Option Draft :=
  let passed := through d.header path
  let target := d.header ++ path.dropLast
  if passed.any d.declared.contains || covers d.closed target then none
  else
    (changeAt true (addEntry (path.getLastD "") v) target d.table).map fun t =>
      { d with table := t, pending := passed ++ d.pending,
               closed := if isNest v then (d.header ++ path) :: d.closed else d.closed }

end Draft

/-- a statement, and what is left of its line and the text -/
def statement (d : Draft) : Scan Draft := fun cs =>
  match cs with
  | '[' :: '[' :: rest =>
    match key (skipSpaces rest) with
    | some (path, ']' :: ']' :: after) => required ((d.settle.openItem path).map fun d => (d, after))
    | _ => .error .malformed
  | '[' :: rest =>
    match key (skipSpaces rest) with
    | some (path, ']' :: after) => required ((d.settle.openTable path).map fun d => (d, after))
    | _ => .error .malformed
  | _ =>
    match key cs with
    | some (path, '=' :: rest) => do
      let (v, after) ← value (2 * rest.length + 2) (skipSpaces rest)
      return (← required (d.write path v), after)
    | _ => .error .malformed

/-- at most so many lines -/
def lines : Nat → Draft → List Char → Except Flaw Draft
  | 0, _, _ => .error .malformed
  | n + 1, d, cs =>
    match skipSpaces cs with
    | [] => .ok d
    | '\n' :: rest => lines n d rest
    | '#' :: rest => do lines n d (← required (endLine true rest))
    | rest => do
      let (d, after) ← statement d rest
      lines n d (← required (endLine false after))

/-- a carriage return before a line feed is no part of a document -/
def withoutReturns : List Char → List Char
  | '\r' :: '\n' :: rest => '\n' :: withoutReturns rest
  | c :: rest => c :: withoutReturns rest
  | [] => []

def parse (text : String) : Except Flaw Table :=
  let cs := withoutReturns text.toList
  (lines (cs.length + 1) {} cs).map Draft.table

end SignalWiring.Toml
