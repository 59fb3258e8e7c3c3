/-
The outline of a C# source: its namespaces, types and delegates as a syntax tree.

A source, a namespace and a type hold members one after the other. A member is a namespace, a type, a delegate, or
something else that is passed over: to its semicolon, or to the end of the block that is its body. Everything in the
branches of a conditional region is a member as well. Delegates are read with their attributes, their name and their
parameters; what is wrong with one of them is marked in its node. A block that is never closed lacks its brace.
-/
import SignalWiring.CSharp.Piece
import SignalWiring.Tree.Basic

namespace SignalWiring.CSharp

/-! ## Nodes -/

def nodeAt (l : Lexeme) (kind : String) (children : List Tree) : Tree where
  kind := kind
  startByte := l.pos.byte
  row := l.pos.row
  column := l.pos.column
  children := children

/-- a node with the source of some pieces as its text -/
def leaf (kind : String) (field : Option String) (ps : List Piece) : List Tree :=
  match ps with
  | [] => []
  | p :: _ =>
    [{ nodeAt p.first kind [] with text := some (Text.Utf8.encode (String.ofList (Piece.slice ps))), field := field }]

def errorNode (l : Lexeme) : Tree := nodeAt l "ERROR" []

/-- a symbol that the source lacks before a lexeme -/
def missingNode (l : Lexeme) (symbol : String) : Tree := { nodeAt l symbol [] with missing := true }

/-! ## Types -/

/-- what follows the angle bracket that closes `depth` open ones -/
def afterAngles : (depth : Nat) → List Piece → List Piece
  | _, [] => []
  | 0, ps => ps
  | depth + 1, p :: rest =>
    if p.is "<" then afterAngles (depth + 2) rest
    else if p.is ">" then afterAngles depth rest
    else afterAngles (depth + 1) rest

/-- what follows type arguments or parameters, if there are any -/
def afterArguments (ps : List Piece) : List Piece :=
  match ps with
  | p :: rest => if p.is "<" then afterAngles 1 rest else ps
  | [] => []

/-- what follows a name with dots, double colons and type arguments; so many segments at most -/
def afterName : (segments : Nat) → List Piece → List Piece
  | 0, ps => ps
  | n + 1, ps =>
    match ps with
    | p :: rest =>
      if p.word?.isSome then
        match afterArguments rest with
        | q :: more => if q.is "." || q.is "::" then afterName n more else q :: more
        | [] => []
      else ps
    | [] => []

/-- what follows question marks, asterisks and array brackets -/
def afterSuffixes (ps : List Piece) : List Piece := ps.dropWhile fun p => p.is "?" || p.is "*" || p.isGroup .square

def afterType (ps : List Piece) : List Piece :=
  match ps with
  | p :: rest =>
    if p.isGroup .round then afterSuffixes rest
    else if p.is "delegate" then
      -- a function pointer: an asterisk, a calling convention, and the types of arguments and result
      afterSuffixes (afterArguments (rest.dropWhile fun q => !q.is "<"))
    else afterSuffixes (afterName ps.length ps)
  | [] => []

/-- keywords that are types of their own -/
def predefinedTypes : List String :=
  ["bool", "byte", "char", "decimal", "double", "float", "int", "long", "object", "sbyte", "short", "string", "uint",
   "ulong", "ushort", "nint", "nuint", "void"]

/-! ## Attributes -/

/-- the specifier of what an attribute list is aimed at, and the pieces after it -/
def splitTarget (inside : List Piece) : List Tree × List Piece :=
  match inside with
  | word :: colon :: rest =>
    if word.word?.isSome && colon.is ":" then (leaf "attribute_target_specifier" none [word, colon], rest)
    else ([], inside)
  | _ => ([], inside)

def attributes : (count : Nat) → List Piece → List Tree
  | 0, _ => []
  | n + 1, ps =>
    match ps with
    | [] => []
    | p :: rest =>
      if p.is "," then attributes n rest
      else
        let after := afterName ps.length ps
        let name := ps.take (ps.length - after.length)
        let more := (after.dropWhile fun q => !q.is ",").drop 1
        nodeAt p.first "attribute" (leaf "name" (some "name") name) :: attributes n more

def attributeList (opening : Lexeme) (inside : List Piece) : Tree :=
  let (target, rest) := splitTarget inside
  nodeAt opening "attribute_list" (target ++ attributes rest.length rest)

/-- the attribute list is one of the whole assembly or module -/
def isGlobalList (inside : List Piece) : Bool :=
  match inside with
  | word :: colon :: _ => word.isOneOf ["assembly", "module"] && colon.is ":"
  | _ => false

/-! ## Parameters -/

inductive ParameterShape where
  | named (name : Lexeme)
  /-- one that takes the remaining arguments; it is no parameter node -/
  | rest
  | nameless
  deriving DecidableEq, Repr

/-- keywords before the type of a parameter -/
def parameterModifiers : List String := ["ref", "out", "in", "this", "scoped", "readonly", "params"]

/-- read one parameter, up to its comma -/
def parameterShape (ps : List Piece) : ParameterShape :=
  let plain := ps.dropWhile fun p => p.isGroup .square
  let modifiers := plain.takeWhile fun p => p.isOneOf parameterModifiers
  let rest := plain.drop modifiers.length
  if modifiers.any fun p => p.is "params" then .rest
  else
    match (afterType rest).head?.bind Piece.word? with
    | some name => .named name
    | none =>
      -- a single word is a name without a type, unless it can only be a type
      match rest with
      | [] => .nameless
      | p :: more =>
        match p.word? with
        | some l =>
          if (more.isEmpty || (more.head?.map fun q => q.is "=").getD false) && !predefinedTypes.contains l.text then
            .named l
          else .nameless
        | none => .nameless

def isTypePiece (p : Piece) : Bool :=
  p.word?.isSome || p.isGroup .square || p.isGroup .round || [".", "::", ",", "?", "*"].any p.is

/-- after an opening angle bracket in an expression: it opens type arguments if nothing but types comes before the one
that closes it, and no operand after that -/
def opensArguments : (depth : Nat) → List Piece → Bool
  | _, [] => false
  | depth, p :: rest =>
    if p.is "<" then opensArguments (depth + 1) rest
    else if p.is ">" then
      if depth = 0 then
        match rest with
        | q :: _ => [".", ",", ";", "?", "==", "!="].any q.is || q.isGroup .round || q.isGroup .square
        | [] => true
      else opensArguments (depth - 1) rest
    else isTypePiece p && opensArguments depth rest

/-- cut pieces at the commas that stand outside of type arguments; `value` after an equals sign, where an angle bracket
can also compare or shift -/
def cutAtCommas : (value : Bool) → (depth : Nat) → List Piece → List (List Piece)
  | _, _, [] => [[]]
  | value, depth, p :: rest =>
    if p.is "," && depth = 0 then [] :: cutAtCommas false 0 rest
    else
      let opened := p.is "<" && (!value || 0 < depth || opensArguments 0 rest)
      let depth := if opened then depth + 1 else if p.is ">" then depth - 1 else depth
      match cutAtCommas (value || p.is "=") depth rest with
      | [] => [[p]]
      | f :: fs => (p :: f) :: fs

def cutParameters (inside : List Piece) : List (List Piece) :=
  if inside.isEmpty then [] else cutAtCommas false 0 inside

/-- the nodes of a parameter list, and whether something is wrong with it -/
def parameters (opening : Lexeme) (inside : List Piece) : Tree × Bool :=
  let cut := cutParameters inside
  let nodes := cut.zipIdx.map fun e =>
    match e.1 with
    | [] => ([errorNode opening], true)
    | p :: _ =>
      match parameterShape e.1 with
      | .named name => ([nodeAt p.first "parameter" (leaf "identifier" (some "name") [.lexeme name])], false)
      | .rest => ([], false)
      | .nameless => if e.2 = 0 then ([errorNode p.first], true) else ([nodeAt p.first "parameter" []], true)
  ({ nodeAt opening "parameter_list" (nodes.flatMap Prod.fst) with field := some "parameters" }, nodes.any Prod.snd)

/-! ## Members -/

/-- where members stand -/
inductive Level where
  | unit
  | space
  | type
  deriving DecidableEq, Repr

/-- keywords before a type or a delegate -/
def modifierWords : List String :=
  ["public", "private", "protected", "internal", "static", "abstract", "sealed", "partial", "readonly", "unsafe", "new",
   "extern", "virtual", "override", "async", "volatile", "required", "file", "ref", "fixed"]

/-- the piece is a conditional region with nothing but attribute lists in it -/
def isAttributeRegion (p : Piece) : Bool :=
  match p with
  | .group .branches _ inside _ => !inside.isEmpty && inside.all fun q => q.isGroup .square
  | _ => false

def attributeNodes (ps : List Piece) : List Tree :=
  ps.filterMap fun
    | .group .square opening inside _ => some (attributeList opening inside)
    | .group .branches opening _ _ => some (nodeAt opening "preproc_if" [])
    | _ => none

def dropSemicolon (ps : List Piece) : List Piece :=
  match ps with
  | p :: rest => if p.is ";" then rest else ps
  | [] => []

/-- what follows a member that is passed over; `value` after an equals sign or an arrow, where a block is no body -/
def afterMember : (value : Bool) → List Piece → List Piece
  | _, [] => []
  | value, p :: rest =>
    if p.is ";" then rest
    else if p.is "=" || p.is "=>" then afterMember true rest
    else if p.isGroup .curly && !value then
      match rest with
      | q :: more => if q.is "=" then afterMember true more else rest
      | [] => []
    else afterMember value rest

/-- what comes before the body or the semicolon of a declaration -/
def header (ps : List Piece) : List Piece := ps.takeWhile fun p => !(p.isGroup .curly || p.is ";")

def typeKinds : List (String × String) :=
  [("class", "class_declaration"), ("struct", "struct_declaration"), ("interface", "interface_declaration"),
   ("enum", "enum_declaration"), ("record", "record_declaration")]

/-- a type declaration: its kind, its name, and what comes after the name -/
def typeStart? (ps : List Piece) : Option (String × Piece × List Piece) :=
  match ps with
  | keyword :: rest =>
    match typeKinds.find? fun e => keyword.is e.1 with
    | none => none
    | some (word, kind) =>
      let named := if word = "record" then rest.dropWhile fun p => p.isOneOf ["class", "struct"] else rest
      match named with
      | name :: more =>
        if name.word?.isNone then none
        else if word ≠ "record" then some (kind, name, more)
        else
          -- a member can be of a type called record; then no body, list or base follows the name
          match more with
          | q :: _ =>
            if q.isGroup .round || q.isGroup .curly || q.is ":" || q.is ";" || q.is "<" || q.is "where" then
              some (kind, name, more)
            else none
          | [] => none
      | [] => none
  | [] => none

/-- a delegate declaration after its keyword: the children after the attributes, whether something is wrong with it,
and what follows it -/
def delegateRest (keyword : Lexeme) (ps : List Piece) : List Tree × Bool × List Piece :=
  let result := ps.dropWhile fun p => p.isOneOf ["ref", "readonly"]
  let named := afterType result
  let (name, after) : List Piece × List Piece :=
    match named with
    | p :: rest => if p.word?.isSome then ([p], afterArguments rest) else ([], named)
    | [] => ([], [])
  match after with
  | .group .round opening inside _ :: rest =>
    let (list, wrong) := parameters opening inside
    let tail := match rest with
      | p :: _ => if p.is "where" then rest.dropWhile (fun q : Piece => !q.is ";") else rest
      | [] => []
    let nodes := leaf "identifier" (some "name") name ++ [list]
    match tail with
    | p :: more =>
      if p.is ";" then (nodes, wrong || name.isEmpty, more)
      else (nodes ++ [missingNode p.first ";"], true, tail)
    | [] => (nodes ++ [missingNode keyword ";"], true, [])
  | _ => (leaf "identifier" (some "name") name, true, afterMember false after)

/-- what stands inside a member -/
inductive Body where
  | none
  /-- a block of members, closed or not -/
  | block (opening : Lexeme) (level : Level) (inside : List Piece) (closed : Bool)
  /-- the branches of a conditional region -/
  | region (inside : List Piece)

/-- a member without what stands inside it, that, and the pieces after the member -/
structure Member where
  /-- there is no node for a semicolon that means nothing -/
  node : Option Tree
  body : Body
  rest : List Piece

/-- a member that starts at a lexeme, its attribute lists and modifiers apart -/
def readDeclaration (start : Lexeme) (lists body : List Piece) : Member :=
  match body with
  | [] => ⟨some (nodeAt start "member" (attributeNodes lists)), .none, []⟩
  | keyword :: rest =>
    if keyword.is "namespace" then
      let name := leaf "name" (some "name") (header rest)
      match rest.drop (header rest).length with
      | .group .curly opening inside closing :: more =>
        ⟨some (nodeAt start "namespace_declaration" name), .block opening .space inside closing.isSome, dropSemicolon more⟩
      | more => ⟨some (nodeAt start "file_scoped_namespace_declaration" name), .none, dropSemicolon more⟩
    else if keyword.is "delegate" && !rest.head?.any (Piece.is · "*") then
      let (children, wrong, more) := delegateRest start rest
      let node := nodeAt start "delegate_declaration" (attributeNodes lists ++ children)
      ⟨some { node with errorFlag := some wrong }, .none, more⟩
    else
      match typeStart? body with
      | none => ⟨some (nodeAt start "member" []), .none, afterMember false body⟩
      | some (kind, name, more) =>
        let node := nodeAt start kind (attributeNodes lists ++ leaf "identifier" (some "name") [name])
        match more.drop (header more).length with
        | .group .curly opening inside closing :: after =>
          let inside := if kind = "enum_declaration" then [] else inside
          ⟨some node, .block opening .type inside closing.isSome, dropSemicolon after⟩
        | after => ⟨some node, .none, dropSemicolon after⟩

def readMember (level : Level) (p : Piece) (rest : List Piece) : Member :=
  let lists := (p :: rest).takeWhile fun q => q.isGroup .square || isAttributeRegion q
  let unlisted := (p :: rest).drop lists.length
  let declared := readDeclaration p.first lists (unlisted.dropWhile fun q => q.isOneOf modifierWords)
  match p with
  | .group .branches opening inside _ =>
    if isAttributeRegion p && !unlisted.isEmpty then declared
    else ⟨some (nodeAt opening "preproc_if" []), .region inside, rest⟩
  | .group .square opening inside _ =>
    if isGlobalList inside then ⟨some (nodeAt opening "global_attribute" []), .none, rest⟩ else declared
  | .group .. => declared
  | .lexeme l =>
    if l.is ";" then ⟨if level = .unit then none else some (errorNode l), .none, rest⟩
    else if l.is ")" || l.is "]" || l.is "\x7d" then ⟨some (errorNode l), .none, rest⟩
    else declared

/-- the members among pieces, in order; `fuel` bounds the number of pieces at all depths -/
def members : (fuel : Nat) → Level → List Piece → List Tree
  | 0, _, _ => []
  | _ + 1, _, [] => []
  | fuel + 1, level, p :: rest =>
    let m := readMember level p rest
    let below := match m.body with
      | .none => []
      | .block opening level inside closed =>
        let missing := if closed then [] else [missingNode opening "\x7d"]
        [nodeAt opening "declaration_list" (members fuel level inside ++ missing)]
      | .region inside => members fuel level inside
    match m.node with
    | some node => { node with children := node.children ++ below } :: members fuel level m.rest
    | none => members fuel level m.rest

def outline (source : String) : Tree where
  kind := "compilation_unit"
  children :=
    let ls := lexemes source
    members (ls.length + 1) .unit (group ls)

end SignalWiring.CSharp
