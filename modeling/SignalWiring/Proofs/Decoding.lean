/-
Reading the lookup tables back.

A lookup table is read entry by entry: a quoted text ends at the first quote without a backslash before it, an integer
with its last digit, and whatever stands around them is skipped. Each written form reads back whatever comes next
(`Written`), so entries delimit themselves and tables do (`read_text`). The table from names is rendered from the
identifiers; its pairs are those of the names, because the two maps of a table are inverse to each other
(`swapped_items_perm`).

- `render_decodes`: the tables in the fragment of the root decode to the identifier table, and when there is no such
  fragment.
-/
import SignalWiring.Proofs.Emission

namespace SignalWiring

/-- The items of a table, turned round, are the entries of its names. -/
theorem IdTable.swapped_items_perm (t : IdTable) : (t.items.map Prod.swap).Perm t.names.entries := by
  have hnames : t.names.entries.Nodup := List.Nodup.of_map _ t.names.distinct
  have hsub : t.names.entries.Subset (t.items.map Prod.swap) := by
    intro e he
    exact List.mem_map.2 ⟨(e.2, e.1), Ledger.get?_eq_some_iff.1 (t.reverse e he), rfl⟩
  have hlength : (t.items.map Prod.swap).length ≤ t.names.entries.length := by
    rw [List.length_map]
    exact t.sizes_eq.ge
  exact ((List.subperm_of_subset hnames hsub).perm_of_length_le hlength).symm

/-- Tables with the same items give each name the same identifier. -/
theorem IdTable.get?_of_items {t u : IdTable} (h : t.items = u.items) (n : String) :
    t.names.get? n = u.names.get? n := by
  refine Ledger.get?_congr (fun e => ?_) n
  rw [← t.swapped_items_perm.mem_iff, h, u.swapped_items_perm.mem_iff]

namespace Emission

namespace LookupTable

/-! ## Readers -/

/-- what reads something off the front of a text and leaves the rest -/
abbrev Reader (α : Type) := List Char → Option (α × List Char)

/-- what sets the parts of a table apart -/
def isSpace (c : Char) : Bool := c = ' ' || c = '\n'

/-- what follows `text`, before which there may be space -/
def after (text : String) (cs : List Char) : Option (List Char) := text.toList.isPrefixOf? (cs.dropWhile isSpace)

def readNatural : Reader Nat := fun cs =>
  match cs.takeWhile Char.isDigit with
  | [] => none
  | digits => some (Nat.ofDigitChars 10 digits 0, cs.dropWhile Char.isDigit)

/-- a decimal number that may have a minus sign -/
def readInteger : Reader Int
  | '-' :: cs => (readNatural cs).map fun r => (-(r.1 : Int), r.2)
  | cs => (readNatural cs).map fun r => ((r.1 : Int), r.2)

def readQuoted : Reader String
  | '"' :: cs => (Text.readLiteral cs).map fun r => (String.ofList r.1, r.2)
  | _ => none

section Tables

variable {K V : Type}

/-- an entry: a key and a value in braces -/
def readEntry (key : Reader K) (value : Reader V) : Reader (K × V) := fun cs => do
  let (k, cs) ← key ((← after "\x7b" cs).dropWhile isSpace)
  let (v, cs) ← value ((← after "," cs).dropWhile isSpace)
  return ((k, v), ← after "\x7d," cs)

def readEntries (key : Reader K) (value : Reader V) (cs : List Char) : List (K × V) × List Char :=
  match readEntry key value cs with
  | none => ([], cs)
  | some (e, rest) =>
    if rest.length < cs.length then
      let r := readEntries key value rest
      (e :: r.1, r.2)
    else ([], cs)
termination_by cs.length

/-- how a table is declared -/
def declaration (keyType valueType name : String) : String :=
  "public static readonly " ++ ("System.Collections.Generic.Dictionary<" ++ keyType ++ ", " ++ valueType ++ ">") ++ " " ++
    name ++ " = new()"

/-- a table of this declaration -/
def read (key : Reader K) (value : Reader V) (keyType valueType name : String) : Reader (List (K × V)) := fun cs => do
  let cs ← after "\x7b" (← after (declaration keyType valueType name) cs)
  let (entries, cs) := readEntries key value cs
  return (entries, ← after "\x7d;" cs)

end Tables

def readNames : Reader (List (String × Int)) := read readQuoted readInteger "string" "int" "SignalName2Id"

def readIds : Reader (List (Int × String)) := read readInteger readQuoted "int" "string" "SignalId2Name"

/-- both tables of a source that starts with `preamble` -/
def readBoth (preamble source : String) : Option (List (String × Int) × List (Int × String)) := do
  let (names, cs) ← readNames (← preamble.toList.isPrefixOf? source.toList)
  let (ids, _) ← readIds cs
  return (names, ids)

/-! ## Written forms -/

/-- `text` is a written form of `a`: it starts with no space, and reads back as long as no digit follows -/
structure Written {α : Type} (read : Reader α) (text : String) (a : α) : Prop where
  starts : ∃ d ds, text.toList = d :: ds ∧ isSpace d = false
  reads : ∀ c rest, c.isDigit = false → read (text.toList ++ c :: rest) = some (a, c :: rest)

theorem written_literal (s : String) : Written readQuoted (Text.literal s) s := by
  have htext : (Text.literal s).toList = '"' :: (Text.escapeLiteral s.toList ++ ['"']) := String.toList_ofList
  refine ⟨⟨_, _, htext, rfl⟩, fun c rest _ => ?_⟩
  rw [htext, List.cons_append, List.append_assoc]
  change (Text.readLiteral (Text.escapeLiteral s.toList ++ '"' :: c :: rest)).map _ = _
  rw [Text.readLiteral_escapeLiteral, Option.map_some, String.ofList_toList]

/-- a digit is neither space nor a minus sign -/
theorem of_isDigit {d : Char} (h : d.isDigit = true) : isSpace d = false ∧ d ≠ '-' := by
  refine ⟨?_, fun hd => absurd (hd ▸ h) (by decide)⟩
  rw [isSpace, Bool.or_eq_false_iff, decide_eq_false_iff_not, decide_eq_false_iff_not]
  exact ⟨fun hd => absurd (hd ▸ h) (by decide), fun hd => absurd (hd ▸ h) (by decide)⟩

theorem readNatural_toDigits (n : Nat) {c : Char} (rest : List Char) (hc : c.isDigit = false) :
    readNatural (Nat.toDigits 10 n ++ c :: rest) = some (n, c :: rest) := by
  have hdigits : ∀ d ∈ Nat.toDigits 10 n, d.isDigit = true := fun d hd =>
    Nat.isDigit_of_mem_toDigits (by decide) (by decide) hd
  have htake : (Nat.toDigits 10 n ++ c :: rest).takeWhile Char.isDigit = Nat.toDigits 10 n := by
    rw [List.takeWhile_append_of_pos hdigits, List.takeWhile_cons_of_neg (by simp [hc]), List.append_nil]
  have hdrop : (Nat.toDigits 10 n ++ c :: rest).dropWhile Char.isDigit = c :: rest := by
    rw [List.dropWhile_append_of_pos hdigits, List.dropWhile_cons_of_neg (by simp [hc])]
  rw [readNatural, htake, hdrop]
  cases h : Nat.toDigits 10 n with
  | nil => exact absurd h Nat.toDigits_ne_nil
  | cons d ds =>
    change some (Nat.ofDigitChars 10 (d :: ds) 0, c :: rest) = _
    rw [← h, Nat.ofDigitChars_toDigits (by decide) (by decide)]

theorem written_integer (i : Int) : Written readInteger (toString i) i := by
  cases i with
  | ofNat n =>
    have htext : (toString (Int.ofNat n)).toList = Nat.toDigits 10 n := Nat.toList_repr
    obtain ⟨d, ds, hdigits⟩ := List.exists_cons_of_ne_nil (Nat.toDigits_ne_nil (n := n) (b := 10))
    have hd := of_isDigit (Nat.isDigit_of_mem_toDigits (b := 10) (n := n) (by decide) (by decide)
      (hdigits ▸ List.mem_cons_self))
    refine ⟨⟨d, ds, htext.trans hdigits, hd.1⟩, fun c rest hc => ?_⟩
    have hread := readNatural_toDigits n rest hc
    rw [htext]
    rw [hdigits, List.cons_append] at hread ⊢
    rw [readInteger.eq_2 _ fun cs h => hd.2 (List.cons.inj h).1, hread]
    rfl
  | negSucc n =>
    have htext : (toString (Int.negSucc n)).toList = '-' :: Nat.toDigits 10 (n + 1) := by
      change ("-" ++ (n + 1).repr).toList = _
      rw [String.toList_append, Nat.toList_repr]
      rfl
    refine ⟨⟨_, _, htext, rfl⟩, fun c rest hc => ?_⟩
    rw [htext, List.cons_append, readInteger, readNatural_toDigits (n + 1) rest hc]
    rfl

/-! ## Tables -/

section Tables

variable {K V : Type} {key : Reader K} {value : Reader V}

/-- space before a written form is skipped -/
theorem Written.dropWhile_space {α : Type} {r : Reader α} {text : String} {a : α} (h : Written r text a)
    (rest : List Char) : (' ' :: (text.toList ++ rest)).dropWhile isSpace = text.toList ++ rest := by
  obtain ⟨d, ds, htext, hd⟩ := h.starts
  rw [htext, List.cons_append, List.dropWhile_cons_of_pos (by rfl), List.dropWhile_cons_of_neg (by simp [hd])]

theorem toList_entryText (e : String × String) :
    (entryText e).toList =
      "        \x7b".toList ++ ' ' :: (e.1.toList ++ ',' :: ' ' :: (e.2.toList ++ " \x7d,".toList)) := by
  have htext : entryText e = "        \x7b " ++ e.1 ++ ", " ++ e.2 ++ " \x7d," := rfl
  simp only [htext, String.toList_append, List.append_assoc]
  rfl

/-- **One entry.** It reads back, whatever follows it. -/
theorem readEntry_entryText {e : String × String} {x : K × V} (hkey : Written key e.1 x.1)
    (hvalue : Written value e.2 x.2) (rest : List Char) :
    readEntry key value ('\n' :: ((entryText e).toList ++ rest)) = some (x, rest) := by
  have hopen : ∀ cs, after "\x7b" ('\n' :: ("        \x7b".toList ++ cs)) = some cs := fun _ => rfl
  have hcomma : ∀ cs, after "," (',' :: cs) = some cs := fun _ => rfl
  have hclose : ∀ cs, after "\x7d," (' ' :: '\x7d' :: ',' :: cs) = some cs := fun _ => rfl
  have hend : (" \x7d,".toList ++ rest : List Char) = ' ' :: '\x7d' :: ',' :: rest := rfl
  rw [toList_entryText]
  simp only [List.append_assoc, List.cons_append, hend]
  rw [readEntry, hopen]
  simp only [Option.bind_eq_bind, Option.bind_some, hkey.dropWhile_space, hkey.reads ',' _ rfl, hcomma,
    hvalue.dropWhile_space, hvalue.reads ' ' _ rfl, hclose]
  rfl

/-- the entries of a table, one on each line -/
def lines (entries : List (String × String)) : List Char := entries.flatMap fun e => '\n' :: (entryText e).toList

/-- **Entries.** They read back up to what is no entry. -/
theorem readEntries_lines {entries : List (String × String)} {xs : List (K × V)} {rest : List Char}
    (h : List.Forall₂ (fun e x => Written key e.1 x.1 ∧ Written value e.2 x.2) entries xs)
    (hrest : readEntry key value rest = none) : readEntries key value (lines entries ++ rest) = (xs, rest) := by
  induction h with
  | nil =>
    rw [lines, List.flatMap_nil, List.nil_append, readEntries, hrest]
  | @cons e x entries xs hx _ ih =>
    have hread := readEntry_entryText hx.1 hx.2 (lines entries ++ rest)
    have hlines : lines (e :: entries) ++ rest = '\n' :: ((entryText e).toList ++ (lines entries ++ rest)) := by
      rw [lines, List.flatMap_cons, List.cons_append, List.cons_append, List.append_assoc]
      rfl
    have hshorter : (lines entries ++ rest).length <
        ('\n' :: ((entryText e).toList ++ (lines entries ++ rest))).length := by
      simp only [List.length_cons, List.length_append]
      omega
    rw [hlines, readEntries, hread]
    simp only [hshorter, if_true, ih]

/-- The entries of a table that has some are its lines. -/
theorem lines_eq {entries : List (String × String)} (h : entries ≠ []) :
    '\n' :: (Text.join "\n" (entries.map entryText)).toList = lines entries := by
  rw [Text.join, String.toList_intercalate, List.map_map]
  induction entries with
  | nil => exact absurd rfl h
  | cons e rest ih =>
    cases rest with
    | nil => simp [lines]
    | cons e' rest =>
      rw [lines, List.flatMap_cons, ← lines, ← ih (List.cons_ne_nil e' rest)]
      simp only [List.map_cons, List.intercalate_cons_cons, Function.comp_apply, List.append_assoc, List.cons_append]
      rfl

/-- what is between the opening brace of a table and what follows the table -/
theorem toList_text (t : LookupTable) : ∃ close,
    t.text.toList = "    ".toList ++ ((declaration t.keyType t.valueType t.name).toList ++
      ("\n    \x7b".toList ++ (lines t.entries ++ close))) ∧
    ∀ rest, after "\x7b" (close ++ rest) = none ∧ after "\x7d;" (close ++ rest) = some rest := by
  have htext : t.text = "    " ++ (declaration t.keyType t.valueType t.name ++ ("\n    \x7b" ++ ("\n" ++
      Text.join "\n" (t.entries.map entryText) ++ "\n    \x7d;"))) := by
    have hfirst : "    public static readonly " = "    " ++ "public static readonly " := by decide
    have hopen : " = new()\n    \x7b\n" = " = new()" ++ ("\n    \x7b" ++ "\n") := by decide
    change "    public static readonly " ++ ("System.Collections.Generic.Dictionary<" ++ t.keyType ++ ", " ++ t.valueType ++
      ">") ++ " " ++ t.name ++ " = new()\n    \x7b\n" ++ Text.join "\n" (t.entries.map entryText) ++ "\n    \x7d;" = _
    unfold declaration
    rw [hfirst, hopen]
    simp only [String.append_assoc, -String.reduceAppend]
  by_cases hentries : t.entries = []
  · refine ⟨['\n', '\n', ' ', ' ', ' ', ' ', '\x7d', ';'], ?_, fun rest => ⟨rfl, rfl⟩⟩
    rw [htext, hentries]
    simp [lines, Text.join]
  · refine ⟨['\n', ' ', ' ', ' ', ' ', '\x7d', ';'], ?_, fun rest => ⟨rfl, rfl⟩⟩
    rw [htext, ← lines_eq hentries]
    simp

/-- **One table.** A table of written keys and values reads back, whatever follows it. -/
theorem read_text {t : LookupTable} {xs : List (K × V)} (rest : List Char)
    (h : List.Forall₂ (fun e x => Written key e.1 x.1 ∧ Written value e.2 x.2) t.entries xs) :
    read key value t.keyType t.valueType t.name (t.text.toList ++ rest) = some (xs, rest) := by
  obtain ⟨close, htext, hclose⟩ := toList_text t
  obtain ⟨hopen, hend⟩ := hclose rest
  have hnone : readEntry key value (close ++ rest) = none := by
    rw [readEntry, hopen]
    rfl
  have hdeclared : ∀ cs, after (declaration t.keyType t.valueType t.name)
      ("    ".toList ++ ((declaration t.keyType t.valueType t.name).toList ++ cs)) = some cs := by
    intro cs
    obtain ⟨ds, hds⟩ : ∃ ds, (declaration t.keyType t.valueType t.name).toList = 'p' :: ds := by
      have hfirst : "public static readonly ".toList = 'p' :: "ublic static readonly ".toList := by decide
      unfold declaration
      simp only [String.toList_append, List.append_assoc]
      rw [hfirst, List.cons_append]
      exact ⟨_, rfl⟩
    rw [after, List.isPrefixOf?_eq_some_iff_append_eq, hds]
    rfl
  have hbrace : ∀ cs, after "\x7b" ("\n    \x7b".toList ++ cs) = some cs := fun _ => rfl
  rw [htext]
  simp only [List.append_assoc]
  rw [read, hdeclared]
  simp only [Option.bind_eq_bind, Option.bind_some, hbrace, readEntries_lines h hnone, hend]
  rfl

end Tables

/-! ## The tables of an identifier table -/

theorem readNames_nameTable (t : IdTable) (rest : List Char) :
    readNames ((nameTable t).text.toList ++ rest) = some (t.items.map Prod.swap, rest) := by
  refine read_text (t := nameTable t) rest ?_
  rw [nameTable, List.forall₂_map_left_iff, List.forall₂_map_right_iff, List.forall₂_same]
  exact fun e _ => ⟨written_literal e.2, written_integer e.1⟩

theorem readIds_idTable (t : IdTable) (rest : List Char) :
    readIds ((idTable t).text.toList ++ rest) = some (t.items, rest) := by
  refine read_text (t := idTable t) rest ?_
  rw [idTable, List.forall₂_map_left_iff, List.forall₂_same]
  exact fun e _ => ⟨written_integer e.1, written_literal e.2⟩

/-- Both tables read back from a source, whatever follows them. -/
theorem readBoth_texts (preamble : String) (t : IdTable) (rest : String) :
    readBoth preamble (preamble ++ ((nameTable t).text ++ ("\n\n" ++ ((idTable t).text ++ rest)))) =
      some (t.items.map Prod.swap, t.items) := by
  have hgap : "\n\n".toList = ['\n', '\n'] := by decide
  have hskip : ∀ cs, readIds ('\n' :: '\n' :: cs) = readIds cs := fun _ => rfl
  have hstrip := List.isPrefixOf?_eq_some_iff_append_eq.2 (Eq.refl (preamble.toList ++ ((nameTable t).text.toList ++
    '\n' :: '\n' :: ((idTable t).text.toList ++ rest.toList))))
  rw [readBoth]
  simp only [String.toList_append, hgap, List.cons_append, List.nil_append, hstrip, Option.bind_eq_bind,
    Option.bind_some, readNames_nameTable, hskip, readIds_idTable]
  rfl

/-- Either table tells all items. -/
theorem items_of_text {t u : IdTable}
    (h : (nameTable t).text = (nameTable u).text ∨ (idTable t).text = (idTable u).text) : t.items = u.items := by
  rcases h with hnames | hids
  · have ht := readNames_nameTable t []
    rw [hnames, readNames_nameTable u []] at ht
    exact List.map_injective_iff.2 Prod.swap_injective (Prod.mk.inj (Option.some.inj ht)).1.symm
  · have ht := readIds_idTable t []
    rw [hids, readIds_idTable u []] at ht
    exact (Prod.mk.inj (Option.some.inj ht)).1.symm

end LookupTable

/-! ## The fragment of the root -/

/-- The last part of a text may end with something more. -/
theorem join_append (separator : String) (parts : List String) (a b : String) :
    Text.join separator (parts ++ [a ++ b]) = Text.join separator (parts ++ [a]) ++ b := by
  induction parts with
  | nil => rfl
  | cons x parts ih =>
    -- `join` looks at the part after the first, and there is one
    have hne : ∀ last, parts ++ [last] ≠ [] := fun last =>
      List.append_ne_nil_of_right_ne_nil parts (List.cons_ne_nil last [])
    obtain ⟨y, ys, hy⟩ := List.exists_cons_of_ne_nil (hne (a ++ b))
    obtain ⟨z, zs, hz⟩ := List.exists_cons_of_ne_nil (hne a)
    rw [Text.join] at ih ⊢
    rw [List.cons_append, List.cons_append, hy, hz, Text.join, String.intercalate_cons_cons, String.intercalate_cons_cons,
      ← hy, ← hz, ih, ← Text.join]
    simp only [String.append_assoc]

/-- what stands before the members of a fragment -/
def Renderer.preamble (r : Renderer) (c : Context) : String :=
  let space := if c.namespaceName = "" then [] else [s!"namespace {c.namespaceName};"]
  Text.join "\n\n" ([Slots.header c.artifact] ++ space ++ [s!"public partial class {r.config.container}\n\x7b" ++ "\n"])

/-- what follows the first two parts of a text -/
theorem join_cons_cons (separator a b : String) (parts : List String) : ∃ rest,
    Text.join separator (a :: b :: parts) = a ++ (separator ++ (b ++ rest)) := by
  cases parts with
  | nil =>
    refine ⟨"", ?_⟩
    rw [Text.join, String.intercalate_cons_cons, String.intercalate_singleton, String.append_empty, String.append_assoc]
  | cons x rest =>
    refine ⟨separator ++ Text.join separator (x :: rest), ?_⟩
    rw [Text.join, String.intercalate_cons_cons, String.intercalate_cons_cons, ← Text.join]
    simp only [String.append_assoc]

/-- The tables come first among the members of the root fragment. -/
theorem Renderer.build_root (r : Renderer) (c : Context) (t : IdTable) : ∃ rest,
    (r.slots c true t).build = r.preamble c ++ ((nameTable t).text ++ ("\n\n" ++ ((idTable t).text ++ rest))) := by
  obtain ⟨more, hmore⟩ := join_cons_cons "\n\n" (nameTable t).text (idTable t).text
    ((r.factories c).map Factory.text ++ [(r.connect t).text, (r.disconnect t).text])
  have hbody : Text.join "\n\n" ((r.slots c true t).fields ++ (r.slots c true t).factories ++
      (r.slots c true t).methods) = (nameTable t).text ++ ("\n\n" ++ ((idTable t).text ++ more)) := hmore
  have hne : (nameTable t).text ++ ("\n\n" ++ ((idTable t).text ++ more)) ≠ "" := fun h => by
    obtain ⟨close, htext, -⟩ := LookupTable.toList_text (nameTable t)
    rw [(String.append_eq_empty_iff.1 h).1] at htext
    cases htext
  have hclass : (r.slots c true t).classText = s!"public partial class {r.config.container}\n\x7b" ++ "\n" ++
      ((nameTable t).text ++ ("\n\n" ++ ((idTable t).text ++ more)) ++ "\n\x7d") := by
    rw [Slots.classText, hbody]
    simp only [hne, if_false, List.cons_append, List.nil_append]
    rw [Text.join, String.intercalate_cons_cons, String.intercalate_cons_cons, String.intercalate_singleton]
    simp only [String.append_assoc]
    rfl
  refine ⟨more ++ "\n\x7d" ++ "\n", ?_⟩
  rw [Slots.build, hclass, join_append]
  change r.preamble c ++ _ ++ "\n" = _
  simp only [String.append_assoc]

/-- **Decoding.** A root fragment is asked for with a table that has the events of the context. It is rendered as long as
every identifier fits the limit on digits, and otherwise refused for having too many of them. Where it is rendered, the two
lookup tables in it read back entry by entry: that from names as the items of the table turned round, which are the entries
of its names, and that from identifiers as the items, in their order. So tables of which either lookup table is the same
match the same names with the same identifiers. -/
theorem render_decodes (r : Renderer) (c : Context) (t : IdTable) (limit : Option ℕ)
    (hevents : ∀ e ∈ c.events, t.has e = true) :
    ((∀ e ∈ t.items, Decimal.Fits limit e.1) → ∃ source, r.render c true t limit = .ok source ∧
      LookupTable.readBoth (r.preamble c) source = some (t.items.map Prod.swap, t.items)) ∧
    ((∃ e ∈ t.items, ¬Decimal.Fits limit e.1) →
      ∃ digits, limit = some digits ∧ r.render c true t limit = .error (.invalid (.tooManyDigits digits))) ∧
    (t.items.map Prod.swap).Perm t.names.entries ∧
    ∀ u : IdTable, (nameTable t).text = (nameTable u).text ∨ (idTable t).text = (idTable u).text →
      t.ids = u.ids ∧ ∀ n, t.names.get? n = u.names.get? n := by
  obtain ⟨ids, hids⟩ := exists_mapM fun e he => Renderer.exists_idOf (Ledger.has_iff.1 (hevents e he))
  refine ⟨fun hfits => ⟨(r.slots c true t).build, ?_, ?_⟩, ?_, t.swapped_items_perm, fun u hu => ?_⟩
  · have hcheck : Renderer.checkDigits limit (Renderer.shown true t) = .ok () :=
      Renderer.checkDigits_of_fits (List.forall_mem_map.2 hfits)
    rw [Renderer.render, hids, hcheck]
    rfl
  · obtain ⟨rest, hbuild⟩ := r.build_root c t
    rw [hbuild]
    exact LookupTable.readBoth_texts _ t rest
  · rintro ⟨e, he, hlong⟩
    obtain ⟨digits, hlimit, hcheck⟩ := Renderer.checkDigits_of_long (List.mem_map_of_mem he) hlong
    refine ⟨digits, hlimit, ?_⟩
    rw [Renderer.render, hids, Renderer.shown, if_pos rfl, hcheck]
    rfl
  · have hitems := LookupTable.items_of_text hu
    exact ⟨Ledger.eq_of_entries hitems, IdTable.get?_of_items hitems⟩

/-! ### A name with a quote and a backslash -/

namespace Sample

theorem named_nil : ∀ p ∈ ([] : List String), p ≠ "" := List.forall_mem_nil _

/-- an event that needs escaping in a literal -/
def quoting : Handler :=
  ⟨"Said\"\\EventHandler", "Said\"\\", [], none, by decide, by decide, List.nodup_nil, named_nil⟩

/-- the root, with this event -/
def speaking : Context := ⟨"Game", "Behavior.cs", [quoting], by decide⟩

/-- two events, numbered out of order and below zero -/
def spoken : IdTable where
  names := ⟨[("Said\"\\", -7), ("Jumped", 40)], by decide⟩
  ids := ⟨[(40, "Jumped"), (-7, "Said\"\\")], by decide⟩
  origins := .empty
  sizes_eq := by decide
  reverse := by decide
  origins_discovered := by decide

end Sample

theorem render_decodes_sample :
    (∀ e ∈ Sample.speaking.events, Sample.spoken.has e = true) ∧
    (∃ source, Renderer.render {} Sample.speaking true Sample.spoken (some 2) = .ok source ∧
      LookupTable.readBoth (Renderer.preamble {} Sample.speaking) source =
        some ([("Jumped", 40), ("Said\"\\", -7)], [(40, "Jumped"), (-7, "Said\"\\")])) ∧
    Renderer.render {} Sample.speaking true Sample.spoken (some 1) = .error (.invalid (.tooManyDigits 1)) := by
  have hevents : ∀ e ∈ Sample.speaking.events, Sample.spoken.has e = true := by decide
  obtain ⟨hrendered, -, -, -⟩ := render_decodes {} Sample.speaking Sample.spoken (some 2) hevents
  obtain ⟨-, hrefused, -, -⟩ := render_decodes {} Sample.speaking Sample.spoken (some 1) hevents
  have hfits : ∀ e ∈ Sample.spoken.items, Decimal.Fits (some 2) e.1 := by
    rintro e he _ ⟨⟩
    revert e
    decide
  have hlong : ∃ e ∈ Sample.spoken.items, ¬Decimal.Fits (some 1) e.1 :=
    ⟨(40, "Jumped"), List.mem_cons_self, fun h => absurd (h 1 rfl) (by decide)⟩
  obtain ⟨_, ⟨⟩, hrefused⟩ := hrefused hlong
  exact ⟨hevents, hrendered hfits, hrefused⟩

end Emission

end SignalWiring
