/-
Attribute names as they may be written.

A name is perhaps an alias, then segments with dots between them. A segment is an identifier, perhaps with a list of
generic arguments, in which there may be names again; blanks may stand around every token. The class of an attribute is
that of its last segment. What is resolved is the last segment only as long as it has no list, or no segment before it
has one: the cut at the first bracket takes away everything from the first list on, and leaves the segment that has it.

- `TypeName`, `TypeName.text`: names and their texts.
- `TypeName.resolved`: the segment whose identifier is found.
- `exists_plain`, `exists_generic`: where that segment stands in the text.
- `attributeClass_text`: what every name resolves to, and when that is its last segment.
- `attributeClass_of_two_lists`: a name that resolves to another segment.
-/
import Mathlib.Data.List.Basic
import Mathlib.Data.List.TakeWhile
import SignalWiring.Tree.Attribute

namespace SignalWiring.Attribute

open Text

/-! ## Names -/

/-- the characters that set the parts of a name apart -/
def marks : List Char := ['.', ':', '<', '>', ',']

/-- blanks between two tokens -/
structure Gap where
  chars : List Char
  blank : ∀ c ∈ chars, isBlank c = true

/-- no blanks -/
def Gap.none : Gap := ⟨[], List.forall_mem_nil _⟩

/-- an identifier with the blanks around it -/
structure Word where
  before : Gap
  name : List Char
  after : Gap
  named : name ≠ []
  plain : ∀ c ∈ name, isBlank c = false ∧ c ∉ marks

mutual

/-- an identifier, perhaps with a list of arguments and the blanks after it -/
inductive Segment where
  | plain (word : Word)
  | generic (word : Word) (arguments : List Piece) (after : Gap)

/-- what stands in a list of arguments: names, and other characters, such as the commas between them -/
inductive Piece where
  | name (name : TypeName)
  | other (c : Char) (no_bracket : c ≠ '<' ∧ c ≠ '>')

/-- perhaps an alias, then segments -/
inductive TypeName where
  | mk (alias? : Option Word) (front : List Segment) (last : Segment)

end

def Word.text (w : Word) : List Char := w.before.chars ++ w.name ++ w.after.chars

/-- an alias with the colons after it -/
def aliasText (alias? : Option Word) : List Char := (alias?.map fun w => w.text ++ [':', ':']).getD []

mutual

def Segment.text : Segment → List Char
  | .plain w => w.text
  | .generic w arguments after => w.text ++ '<' :: (listText arguments ++ '>' :: after.chars)

def Piece.text : Piece → List Char
  | .name n => n.text
  | .other c _ => [c]

/-- what stands between the brackets of a list -/
def listText : List Piece → List Char
  | [] => []
  | p :: ps => p.text ++ listText ps

/-- segments with a dot after each -/
def dotted : List Segment → List Char
  | [] => []
  | s :: ss => s.text ++ '.' :: dotted ss

def TypeName.text : TypeName → List Char
  | .mk alias? front last => aliasText alias? ++ (dotted front ++ last.text)

end

/-- the identifier of a segment -/
def Segment.word : Segment → Word
  | .plain w | .generic w _ _ => w

def Segment.isGeneric : Segment → Bool
  | .plain _ => false
  | .generic .. => true

def TypeName.front : TypeName → List Segment
  | .mk _ front _ => front

def TypeName.last : TypeName → Segment
  | .mk _ _ last => last

/-- the class that an identifier names: `Attribute` is appended unless the identifier ends with it -/
def Word.className (w : Word) : String :=
  if "Attribute".toList <:+ w.name then String.ofList w.name else String.ofList w.name ++ "Attribute"

/-- the segment whose identifier is found: the last one, unless it and one before it have a list; then the first that
has one -/
def TypeName.resolved (n : TypeName) : Segment :=
  if n.last.isGeneric then (n.front.find? Segment.isGeneric).getD n.last else n.last

/-! ## Blanks -/

section Blanks

theorem dropWhile_blank {cs : List Char} (g : Gap) (h : ∀ c ∈ cs.head?, isBlank c = false) :
    (g.chars ++ cs).dropWhile isBlank = cs := by
  rw [List.dropWhile_append_of_pos g.blank]
  cases cs with
  | nil => rfl
  | cons c rest => exact List.dropWhile_cons_of_neg (by simpa using h c rfl)

theorem trimEnd_append_gap {cs : List Char} (g : Gap) (h : ∀ c ∈ cs.getLast?, isBlank c = false) :
    trimEnd (cs ++ g.chars) = cs := by
  have hreverse : (g.chars.reverse ++ cs.reverse).dropWhile isBlank = cs.reverse :=
    dropWhile_blank ⟨g.chars.reverse, fun c hc => g.blank c (List.mem_reverse.1 hc)⟩ (by simpa using h)
  rw [trimEnd, List.reverse_append, hreverse, List.reverse_reverse]

variable (w : Word)

theorem Word.head_name : ∀ c ∈ w.name.head?, isBlank c = false := fun _ hc => (w.plain _ (List.mem_of_mem_head? hc)).1

theorem Word.getLast_name : ∀ c ∈ w.name.getLast?, isBlank c = false := fun _ hc =>
  (w.plain _ (List.mem_of_mem_getLast? hc)).1

end Blanks

/-! ### Targets -/

/-- what may be written for the target of an attribute list: the word with blanks around it, and then colons -/
def targetText (before : Gap) (target : String) (after : Gap) (colons : ℕ) : String :=
  String.ofList (before.chars ++ (target.toList ++ after.chars) ++ List.replicate colons ':')

/-- colons at the end go away -/
theorem dropColons_append {cs : List Char} (colons : ℕ) (h : cs.getLast? ≠ some ':') :
    ((cs ++ List.replicate colons ':').reverse.dropWhile (· == ':')).reverse = cs := by
  rw [List.reverse_append, List.reverse_replicate, List.dropWhile_append_of_pos (by simp)]
  cases hcs : cs.reverse with
  | nil => simpa using hcs.symm
  | cons c rest =>
    have hlast : cs.getLast? = some c := by rw [← List.head?_reverse, hcs, List.head?_cons]
    have hc : c ≠ ':' := fun hc => h (hlast.trans (congrArg some hc))
    rw [List.dropWhile_cons_of_neg (by simpa using hc), ← hcs, List.reverse_reverse]

theorem exists_dropColons (cs : List Char) : ∃ colons : ℕ,
    cs = (cs.reverse.dropWhile (· == ':')).reverse ++ List.replicate colons ':' := by
  have hcolons : cs.reverse.takeWhile (· == ':') = List.replicate (cs.reverse.takeWhile (· == ':')).length ':' :=
    List.eq_replicate_iff.2 ⟨rfl, fun c hc => by simpa using List.mem_takeWhile_imp hc⟩
  refine ⟨(cs.reverse.takeWhile (· == ':')).length, ?_⟩
  rw [← List.reverse_replicate, ← hcolons, ← List.reverse_append, List.takeWhile_append_dropWhile, List.reverse_reverse]

/-- every text is some target with blanks around it and colons after it -/
theorem exists_targetText (written : String) : ∃ before after colons,
    written = targetText before (Tree.targetName written) after colons := by
  obtain ⟨colons, hcolons⟩ := exists_dropColons written.toList
  obtain ⟨tail, htail, hblank⟩ := exists_trimEnd ((written.toList.reverse.dropWhile (· == ':')).reverse.dropWhile isBlank)
  refine ⟨⟨(written.toList.reverse.dropWhile (· == ':')).reverse.takeWhile isBlank, fun c hc => List.mem_takeWhile_imp hc⟩,
    ⟨tail, hblank⟩, colons, String.toList_injective ?_⟩
  rw [targetText, Tree.targetName, trim, String.toList_ofList, String.toList_ofList, ← htail,
    List.takeWhile_append_dropWhile]
  exact hcolons

/-- **Targets.** A target that starts and ends with neither a blank nor a colon is named by a text that may be written for
it, and by no other. -/
theorem targetName_eq_iff {written target : String} (hfirst : ∀ c ∈ target.toList.head?, isBlank c = false)
    (hlast : ∀ c ∈ target.toList.getLast?, isBlank c = false ∧ c ≠ ':') (hne : target ≠ "") :
    Tree.targetName written = target ↔ ∃ before after colons, written = targetText before target after colons := by
  refine ⟨fun h => h ▸ exists_targetText written, ?_⟩
  rintro ⟨before, after, colons, rfl⟩
  have hchars : target.toList ≠ [] := fun hnil => hne (String.toList_injective hnil)
  have hcolon : (before.chars ++ (target.toList ++ after.chars)).getLast? ≠ some ':' := by
    rw [List.getLast?_append_of_ne_nil _ (List.append_ne_nil_of_left_ne_nil hchars _)]
    cases hafter : after.chars with
    | nil =>
      rw [List.append_nil]
      exact fun h => (hlast ':' h).2 rfl
    | cons c rest =>
      rw [List.getLast?_append_of_ne_nil _ (List.cons_ne_nil c rest), ← hafter]
      intro h
      exact absurd (after.blank ':' (List.mem_of_mem_getLast? h)) (by decide)
  have hstart : ∀ c ∈ (target.toList ++ after.chars).head?, isBlank c = false := by
    rw [List.head?_append_of_ne_nil _ hchars]
    exact hfirst
  rw [Tree.targetName, targetText, String.toList_ofList, dropColons_append colons hcolon, trim,
    dropWhile_blank before hstart, trimEnd_append_gap after fun c hc => (hlast c hc).1, String.ofList_toList]

/-! ## Where segments end -/

/-- no mark of a name but perhaps brackets: what stands between two dots -/
def Unmarked (cs : List Char) : Prop := '.' ∉ cs ∧ ':' ∉ cs

/-- what may stand before a segment: nothing, a dot, or the colons of an alias -/
inductive Opens : List Char → Prop
  | start : Opens []
  | dot (cs : List Char) : Opens (cs ++ ['.'])
  | colons (cs : List Char) : Opens (cs ++ [':', ':'])

theorem beforeColons_append {xs : List Char} (h : ':' ∉ xs) (ys : List Char) :
    beforeColons (xs ++ ys) = xs ++ beforeColons ys := by
  induction xs with
  | nil => rfl
  | cons x rest ih =>
    have hx : x ≠ ':' := fun hx => h (hx ▸ List.mem_cons_self)
    rw [List.cons_append, beforeColons, ih fun hc => h (List.mem_cons_of_mem _ hc), List.cons_append]
    exact fun _ hcolon _ => hx hcolon

theorem takeWhile_of_not_mem {xs : List Char} {c : Char} (h : c ∉ xs) : xs.takeWhile (· != c) = xs :=
  List.takeWhile_eq_self_iff.2 fun x hx => bne_iff_ne.2 fun (hc : x = c) => h (hc ▸ hx)

theorem takeWhile_append_stop {xs : List Char} {c : Char} (h : c ∉ xs) (ys : List Char) :
    (xs ++ c :: ys).takeWhile (· != c) = xs := by
  rw [List.takeWhile_append_of_pos fun x hx => bne_iff_ne.2 fun (hc : x = c) => h (hc ▸ hx),
    List.takeWhile_cons_of_neg (by simp), List.append_nil]

/-- **The last segment.** It is what follows the last thing that a segment may begin after. -/
theorem lastSegment_of_opens {start cs : List Char} (hstart : Opens start) (hcs : Unmarked cs) :
    lastSegment (start ++ cs) = cs := by
  have hdot : '.' ∉ cs.reverse := fun h => hcs.1 (List.mem_reverse.1 h)
  have hcolon : ':' ∉ cs.reverse := fun h => hcs.2 (List.mem_reverse.1 h)
  have hall := takeWhile_of_not_mem hdot
  rw [lastSegment, List.reverse_append, beforeColons_append hcolon]
  cases hstart with
  | start => rw [List.reverse_nil, beforeColons, List.append_nil, hall, List.reverse_reverse]
  | dot front =>
    have hnext : beforeColons (front ++ ['.']).reverse = '.' :: beforeColons front.reverse := by
      rw [List.reverse_append]
      exact beforeColons_append (by decide : ':' ∉ ['.']) front.reverse
    rw [hnext, takeWhile_append_stop hdot, List.reverse_reverse]
  | colons front =>
    have hnext : beforeColons (front ++ [':', ':']).reverse = [] := by
      rw [List.reverse_append]
      rfl
    rw [hnext, List.append_nil, hall, List.reverse_reverse]

/-- blanks at the front of a text do not change where its segments begin -/
theorem exists_dropWhile {start : List Char} (hstart : Opens start) (g : Gap) {cs : List Char}
    (hcs : ∀ c ∈ cs.head?, isBlank c = false) : ∃ (start' : List Char) (g' : Gap), Opens start' ∧ start' ⊆ start ∧
      (start ++ (g.chars ++ cs)).dropWhile isBlank = start' ++ (g'.chars ++ cs) := by
  -- the mark at the end of `start` is no blank, so dropping stops before it
  have hmark : ∀ (front mark : List Char), (∀ c ∈ mark.head?, isBlank c = false) → mark ≠ [] →
      ∃ front', front' ++ mark ⊆ front ++ mark ∧
        ∀ more, (front ++ mark ++ more).dropWhile isBlank = front' ++ mark ++ more := by
    intro front mark hhead hne
    obtain ⟨c, rest, rfl⟩ := List.exists_cons_of_ne_nil hne
    have hsub : front.dropWhile isBlank ⊆ front := (List.dropWhile_suffix _).subset
    refine ⟨front.dropWhile isBlank, List.append_subset_of_subset_of_subset
      (List.subset_append_of_subset_left _ hsub) (List.subset_append_right _ _), fun more => ?_⟩
    rw [List.append_assoc, List.dropWhile_append]
    by_cases hall : (front.dropWhile isBlank).isEmpty = true
    · rw [if_pos hall, List.isEmpty_iff.1 hall, List.cons_append, List.dropWhile_cons_of_neg (by simp [hhead c rfl])]
      rfl
    · rw [if_neg hall, List.append_assoc]
  cases hstart with
  | start => exact ⟨[], .none, .start, List.Subset.refl _, dropWhile_blank g hcs⟩
  | dot front =>
    obtain ⟨front', hsub, hdrop⟩ := hmark front ['.'] (by rintro _ ⟨⟩; rfl) (List.cons_ne_nil _ _)
    exact ⟨front' ++ ['.'], g, .dot front', hsub, hdrop _⟩
  | colons front =>
    obtain ⟨front', hsub, hdrop⟩ := hmark front [':', ':'] (by rintro _ ⟨⟩; rfl) (List.cons_ne_nil _ _)
    exact ⟨front' ++ [':', ':'], g, .colons front', hsub, hdrop _⟩

/-! ## What is resolved -/

section Resolution

variable {start : List Char} {w : Word}

theorem Gap.not_mem (g : Gap) {c : Char} (h : isBlank c = false) : c ∉ g.chars := fun hc => by
  rw [g.blank c hc] at h
  cases h

theorem Word.not_mem_name (w : Word) {c : Char} (h : c ∈ marks) : c ∉ w.name := fun hc => (w.plain c hc).2 h

/-- the end of a text that ends with an identifier is the end of the identifier -/
theorem Word.getLast?_append (w : Word) (cs : List Char) : (cs ++ w.name).getLast? = w.name.getLast? := by
  obtain ⟨c, hc⟩ := Option.ne_none_iff_exists'.1 (mt List.getLast?_eq_none_iff.1 w.named)
  rw [List.getLast?_append, hc, Option.some_or]

theorem Word.head?_append (w : Word) (cs : List Char) : (w.name ++ cs).head? = w.name.head? := by
  obtain ⟨c, rest, hname⟩ := List.exists_cons_of_ne_nil w.named
  rw [hname]
  rfl

/-- what is left when the arguments are cut off resolves to the identifier at its end -/
theorem attributeClass_of_cut {text : List Char} {g after : Gap} (hstart : Opens start)
    (hcut : withoutArguments (trim text) = start ++ (g.chars ++ (w.name ++ after.chars))) :
    attributeClass (String.ofList text) = w.className := by
  have hunmarked : Unmarked (g.chars ++ (w.name ++ after.chars)) := by
    constructor
    · simp [g.not_mem (c := '.') rfl, w.not_mem_name (c := '.') (by decide), after.not_mem (c := '.') rfl]
    · simp [g.not_mem (c := ':') rfl, w.not_mem_name (c := ':') (by decide), after.not_mem (c := ':') rfl]
  have htrim : trim (g.chars ++ (w.name ++ after.chars)) = w.name := by
    rw [trim, dropWhile_blank g (by rw [w.head?_append]; exact w.head_name), trimEnd_append_gap after w.getLast_name]
  have hne : String.ofList w.name ≠ "" := fun h => w.named (by simpa using congrArg String.toList h)
  unfold attributeClass
  rw [String.toList_ofList, hcut, lastSegment_of_opens hstart hunmarked, htrim]
  simp only [if_neg hne, String.toList_ofList, List.isSuffixOf_iff_suffix, Word.className]

/-- a text that ends with an identifier resolves to it -/
theorem attributeClass_of_plain (hstart : Opens start) :
    attributeClass (String.ofList (start ++ w.text)) = w.className := by
  have hhead : ∀ c ∈ (w.name ++ w.after.chars).head?, isBlank c = false := by
    rw [w.head?_append]
    exact w.head_name
  obtain ⟨start', g, hstart', -, hdrop⟩ := exists_dropWhile hstart w.before hhead
  have htrim : trim (start ++ w.text) = start' ++ (g.chars ++ w.name) := by
    have hlast : ∀ c ∈ (start' ++ (g.chars ++ w.name)).getLast?, isBlank c = false := by
      rw [← List.append_assoc, w.getLast?_append]
      exact w.getLast_name
    rw [trim, Word.text, List.append_assoc, hdrop, ← List.append_assoc, ← List.append_assoc, List.append_assoc start',
      trimEnd_append_gap w.after hlast]
  -- the text does not end with a bracket, so nothing is cut off
  have hbracket : (start' ++ (g.chars ++ w.name)).getLast? ≠ some '>' := by
    rw [← List.append_assoc, w.getLast?_append]
    exact fun h => w.not_mem_name (c := '>') (by decide) (List.mem_of_getLast? h)
  have hcut : withoutArguments (trim (start ++ w.text)) = start' ++ (g.chars ++ (w.name ++ Gap.none.chars)) := by
    rw [htrim, withoutArguments, if_neg, Gap.none, List.append_nil]
    rw [Bool.and_eq_true, decide_eq_true_eq]
    exact fun h => hbracket h.1
  exact attributeClass_of_cut hstart' hcut

/-- a text that ends with a list resolves to the identifier before the first one -/
theorem attributeClass_of_generic (hstart : Opens start) (hfree : '<' ∉ start) (inside : List Char) (g : Gap) :
    attributeClass (String.ofList (start ++ (w.text ++ '<' :: (inside ++ '>' :: g.chars)))) = w.className := by
  have hhead : ∀ c ∈ (w.name ++ (w.after.chars ++ '<' :: (inside ++ '>' :: g.chars))).head?, isBlank c = false := by
    rw [w.head?_append]
    exact w.head_name
  obtain ⟨start', g', hstart', hsub, hdrop⟩ := exists_dropWhile hstart w.before hhead
  have htrim : trim (start ++ (w.text ++ '<' :: (inside ++ '>' :: g.chars))) =
      start' ++ (g'.chars ++ (w.name ++ w.after.chars)) ++ '<' :: (inside ++ ['>']) := by
    have hend : start' ++ (g'.chars ++ (w.name ++ (w.after.chars ++ '<' :: (inside ++ '>' :: g.chars)))) =
        start' ++ (g'.chars ++ (w.name ++ w.after.chars)) ++ '<' :: (inside ++ ['>']) ++ g.chars := by simp
    rw [trim, Word.text, List.append_assoc, List.append_assoc, hdrop, hend, trimEnd_append_gap g]
    rw [← List.cons_append, ← List.append_assoc, List.getLast?_concat]
    rintro _ ⟨⟩
    rfl
  have hfront : '<' ∉ start' ++ (g'.chars ++ (w.name ++ w.after.chars)) := by
    simp [mt (@hsub '<') hfree, g'.not_mem (c := '<') rfl, w.not_mem_name (c := '<') (by decide),
      w.after.not_mem (c := '<') rfl]
  have hcut : withoutArguments (trim (start ++ (w.text ++ '<' :: (inside ++ '>' :: g.chars)))) =
      start' ++ (g'.chars ++ (w.name ++ w.after.chars)) := by
    rw [htrim, withoutArguments, if_pos, takeWhile_append_stop hfront]
    rw [← List.cons_append, ← List.append_assoc, List.getLast?_concat]
    simp
  exact attributeClass_of_cut hstart' hcut

end Resolution

/-! ## Segments of a name -/

section Segments

variable {start : List Char} {segments : List Segment}

theorem opens_alias (alias? : Option Word) : Opens (aliasText alias?) := by
  cases alias? with
  | none => exact .start
  | some w => exact .colons w.text

theorem opens_dotted (hstart : Opens start) : Opens (start ++ dotted segments) := by
  induction segments generalizing start with
  | nil =>
    rw [dotted, List.append_nil]
    exact hstart
  | cons s rest ih =>
    have hstep : start ++ dotted (s :: rest) = start ++ s.text ++ ['.'] ++ dotted rest := by simp [dotted]
    rw [hstep]
    exact ih (.dot _)

theorem dotted_append (before after : List Segment) : dotted (before ++ after) = dotted before ++ dotted after := by
  induction before with
  | nil => rfl
  | cons s rest ih => simp [dotted, ih]

theorem Word.not_mem_text (w : Word) {c : Char} (hblank : isBlank c = false) (hmark : c ∈ marks) : c ∉ w.text := by
  simp [Word.text, w.before.not_mem hblank, w.not_mem_name hmark, w.after.not_mem hblank]

theorem bracket_not_mem_alias (alias? : Option Word) : '<' ∉ aliasText alias? := by
  cases alias? with
  | none => exact List.not_mem_nil
  | some w => simp [aliasText, w.not_mem_text (c := '<') rfl (by decide)]

/-- segments without a list have no bracket in them -/
theorem bracket_not_mem_dotted (h : ∀ s ∈ segments, s.isGeneric = false) : '<' ∉ dotted segments := by
  induction segments with
  | nil => exact List.not_mem_nil
  | cons s rest ih =>
    have hrest := ih fun x hx => h x (List.mem_cons_of_mem _ hx)
    cases s with
    | plain w => simp [dotted, Segment.text, hrest, w.not_mem_text (c := '<') rfl (by decide)]
    | generic w arguments after => cases h _ List.mem_cons_self

/-- A last segment without a list ends the text with its identifier. -/
theorem exists_plain (n : TypeName) (h : n.last.isGeneric = false) :
    ∃ start, Opens start ∧ n.text = start ++ n.last.word.text := by
  obtain ⟨alias?, front, last⟩ := n
  cases last with
  | plain w => exact ⟨aliasText alias? ++ dotted front, opens_dotted (opens_alias alias?), (List.append_assoc _ _ _).symm⟩
  | generic w arguments after => cases h

/-- With a list at its end, a text has its first bracket after the identifier of the first segment with a list. -/
theorem exists_generic (n : TypeName) (h : n.last.isGeneric = true) : ∃ start inside after, Opens start ∧ '<' ∉ start ∧
    n.text = start ++ (n.resolved.word.text ++ '<' :: (inside ++ '>' :: Gap.chars after)) := by
  obtain ⟨alias?, front, last⟩ := n
  cases last with
  | plain w => cases h
  | generic w arguments after =>
    change ∃ start inside after', _ ∧ _ ∧ aliasText alias? ++ (dotted front ++ _) =
      start ++ (((front.find? Segment.isGeneric).getD (.generic w arguments after)).word.text ++ _)
    cases hfind : front.find? Segment.isGeneric with
    | none =>
      have hplain : ∀ s ∈ front, s.isGeneric = false := fun s hs =>
        Bool.eq_false_iff.2 (List.find?_eq_none.1 hfind s hs)
      refine ⟨aliasText alias? ++ dotted front, listText arguments, after, opens_dotted (opens_alias alias?), ?_,
        (List.append_assoc _ _ _).symm⟩
      simp [bracket_not_mem_alias alias?, bracket_not_mem_dotted hplain]
    | some s =>
      obtain ⟨hgeneric, before, behind, rfl, hbefore⟩ := List.find?_eq_some_iff_append.1 hfind
      have hplain : ∀ s ∈ before, s.isGeneric = false := fun s hs => by simpa using hbefore s hs
      cases s with
      | plain v => cases hgeneric
      | generic v listed gap =>
        refine ⟨aliasText alias? ++ dotted before, listText listed ++ '>' :: (gap.chars ++ '.' :: (dotted behind ++
          (w.text ++ '<' :: listText arguments))), after, opens_dotted (opens_alias alias?), ?_, ?_⟩
        · simp [bracket_not_mem_alias alias?, bracket_not_mem_dotted hplain]
        · simp [dotted_append, dotted, Segment.text, Segment.word]

end Segments

/-- **Attribute names.** Every name resolves to the class of an identifier in it, which is that of its last segment unless
that segment and one before it have a list of arguments. Where they have, it is that of the first segment with a list,
and so the class is that of the last segment only if the two identifiers name the same class. -/
theorem attributeClass_text (n : TypeName) :
    attributeClass (String.ofList n.text) = n.resolved.word.className ∧
    (attributeClass (String.ofList n.text) = n.last.word.className ↔
      (n.last.isGeneric = true → ∀ s, n.front.find? Segment.isGeneric = some s →
        s.word.className = n.last.word.className)) := by
  have hresolved : attributeClass (String.ofList n.text) = n.resolved.word.className := by
    cases hlast : n.last.isGeneric with
    | false =>
      obtain ⟨start, hstart, htext⟩ := exists_plain n hlast
      rw [htext, attributeClass_of_plain hstart, TypeName.resolved, if_neg (by simp [hlast])]
    | true =>
      obtain ⟨start, inside, after, hstart, hfree, htext⟩ := exists_generic n hlast
      rw [htext, attributeClass_of_generic hstart hfree]
  refine ⟨hresolved, ?_⟩
  rw [hresolved, TypeName.resolved]
  cases hlast : n.last.isGeneric with
  | false => simp
  | true =>
    cases hfind : n.front.find? Segment.isGeneric with
    | none => simp
    | some s => simp

/-! ### Two segments with lists -/

namespace Sample

/-- an identifier without blanks around it -/
def word (name : List Char) (named : name ≠ []) (plain : (name.all fun c => !isBlank c && !marks.contains c) = true) :
    Word :=
  ⟨.none, name, .none, named, fun c hc => by simpa using List.all_eq_true.1 plain c hc⟩

/-- an identifier with one argument, which is an identifier -/
def generic (w argument : Word) : Segment := .generic w [.name (.mk none [] (.plain argument))] .none

/-- a generic class in a generic class -/
def nested : TypeName :=
  let outer := generic (word "Outer".toList (by decide) (by decide)) (word "int".toList (by decide) (by decide))
  .mk none [outer] (generic (word "Signal".toList (by decide) (by decide)) (word "string".toList (by decide) (by decide)))

end Sample

/-- A generic class in a generic class resolves to the outer one. -/
theorem attributeClass_of_two_lists :
    Sample.nested.text = "Outer<int>.Signal<string>".toList ∧ Sample.nested.last.word.className = "SignalAttribute" ∧
      attributeClass "Outer<int>.Signal<string>" = "OuterAttribute" := by
  refine ⟨?_, ?_, ?_⟩ <;> decide +kernel

end SignalWiring.Attribute
