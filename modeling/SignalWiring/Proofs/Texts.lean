/-
What is written in a tree.

A tree is legible when the texts of its nodes can be decoded. What is read off a legible tree is then a text or a list of
texts, and no longer a computation that may fail.

- `Tree.Legible`: what is asked of a tree, and its parts.
- `Tree.written` and its neighbours: the text of a node, of one of its fields, of a parameter and of an attribute.
- `Tree.Bears`: a declaration carries an attribute of a class, in a list that is not aimed elsewhere.
- `foreign_iff`: which lists are aimed elsewhere, by what is written in them.
- `Legible.parameterNames_eq`, `Legible.isMarked_eq`: what a reader gives on a legible tree.
-/
import SignalWiring.Proofs.AttributeNames
import SignalWiring.Proofs.Places
import SignalWiring.Proofs.Refusal
import SignalWiring.Tree.Delegate

namespace SignalWiring.Tree

/-! ## Texts -/

/-- every text of the tree can be decoded -/
def Legible (t : Tree) : Prop := ∀ n ∈ t.preorder, ∃ s, n.source = .ok s

instance (t : Tree) : Decidable t.Legible :=
  decidable_of_iff (∀ n ∈ t.preorder, n.source.toBool = true) <| forall₂_congr fun n _ => by
    cases n.source with
    | ok s => exact iff_of_true rfl ⟨s, rfl⟩
    | error f => exact iff_of_false Bool.false_ne_true fun ⟨_, h⟩ => nomatch h

/-- the text of a node, empty when it has none -/
def written (t : Tree) : String := t.source.toOption.getD ""

/-- the text of a field, empty when there is no such field -/
def writtenField (t : Tree) (name : String) : String := ((t.fieldNamed? name).map written).getD ""

/-- the text of the name field, or else of another node that may have the name -/
def writtenName (t : Tree) (other : Option Tree) : String :=
  if t.writtenField "name" ≠ "" then t.writtenField "name" else (other.map written).getD ""

/-- the name of a parameter: its name field, or else its last identifier -/
def writtenParameter (parameter : Tree) : String :=
  parameter.writtenName (parameter.children.filter fun c => c.kind == "identifier").getLast?

/-- the names of the parameters of a list, in order -/
def writtenParameters (list : Tree) : List String :=
  (list.children.filter fun c => c.kind == "parameter" || c.kind == "parameter_array").map writtenParameter

/-- the name of an attribute: its name field, or else its first child that is a name -/
def writtenAttribute (a : Tree) : String := a.writtenName (a.children.find? fun c => nameKinds.contains c.kind)

/-! ## Marks -/

/-- the attribute list is aimed at something other than the declared type -/
def Foreign (list : Tree) : Prop :=
  ∃ specifier, list.children.find? (fun c => c.kind == "attribute_target_specifier") = some specifier ∧
    targetName specifier.written ∈ foreignTargets

/-- an attribute of class `marker` is in one of the attribute lists of the declaration that are not aimed elsewhere -/
def Bears (declaration : Tree) (marker : String) : Prop :=
  ∃ list ∈ declaration.children, list.kind = "attribute_list" ∧ ¬list.Foreign ∧
    ∃ a ∈ list.children, a.kind = "attribute" ∧ attributeClass a.writtenAttribute = marker

instance (list : Tree) : Decidable list.Foreign :=
  decidable_of_iff ((list.children.find? fun c => c.kind == "attribute_target_specifier").any
      (fun c => foreignTargets.contains (targetName c.written)) = true) <| by
    simp [Foreign, Option.any_eq_true]

instance (declaration : Tree) (marker : String) : Decidable (declaration.Bears marker) :=
  inferInstanceAs (Decidable (∃ list ∈ declaration.children, _))

/-- none of the foreign targets starts or ends with a blank or a colon -/
theorem ends_of_foreignTargets {target : String} (h : target ∈ foreignTargets) :
    (∀ c ∈ target.toList.head?, Text.isBlank c = false) ∧
      (∀ c ∈ target.toList.getLast?, Text.isBlank c = false ∧ c ≠ ':') ∧ target ≠ "" := by
  have hends : ∀ t ∈ foreignTargets, t.toList.head?.all (!Text.isBlank ·) = true ∧
      t.toList.getLast?.all (fun c => !Text.isBlank c && c != ':') = true ∧ t ≠ "" := by decide
  obtain ⟨hhead, hlast, hne⟩ := hends target h
  refine ⟨fun c hc => ?_, fun c hc => ?_, hne⟩
  · simpa using Option.all_eq_true _ _ |>.1 hhead c hc
  · simpa using Option.all_eq_true _ _ |>.1 hlast c hc

/-- **Lists aimed elsewhere.** The first specifier of a list decides, and what is written in it is one of six targets. -/
theorem foreign_iff {list : Tree} : list.Foreign ↔ ∃ front specifier back,
    list.children = front ++ specifier :: back ∧ specifier.kind = "attribute_target_specifier" ∧
      (∀ c ∈ front, c.kind ≠ "attribute_target_specifier") ∧
      ∃ target ∈ ["return", "param", "field", "property", "method", "event"], ∃ before after colons,
        specifier.written = Attribute.targetText before target after colons := by
  have hnamed : ∀ written, targetName written ∈ foreignTargets ↔
      ∃ target ∈ foreignTargets, ∃ before after colons, written = Attribute.targetText before target after colons := by
    intro written
    constructor
    · exact fun h => ⟨_, h, Attribute.exists_targetText written⟩
    · rintro ⟨target, htarget, hwritten⟩
      obtain ⟨hfirst, hlast, hne⟩ := ends_of_foreignTargets htarget
      rw [(Attribute.targetName_eq_iff hfirst hlast hne).2 hwritten]
      exact htarget
  rw [Foreign]
  simp only [hnamed, List.find?_eq_some_iff_append, beq_iff_eq, Bool.not_eq_true', beq_eq_false_iff_ne]
  constructor
  · rintro ⟨specifier, ⟨hkind, front, back, hchildren, hfront⟩, htarget⟩
    exact ⟨front, specifier, back, hchildren, hkind, hfront, htarget⟩
  · rintro ⟨front, specifier, back, hchildren, hkind, hfront, htarget⟩
    exact ⟨specifier, ⟨hkind, front, back, hchildren, hfront⟩, htarget⟩

/-- the classes named in one attribute list -/
def writtenClasses (list : Tree) : List String :=
  if list.Foreign then []
  else (((list.children.filter fun c => c.kind == "attribute").map writtenAttribute).map attributeClass).filter
    fun n => n ≠ ""

theorem mem_writtenClasses {list : Tree} {marker : String} (hmarker : marker ≠ "") : marker ∈ list.writtenClasses ↔
    ¬list.Foreign ∧ ∃ a ∈ list.children, a.kind = "attribute" ∧ attributeClass a.writtenAttribute = marker := by
  rw [writtenClasses]
  split_ifs with hforeign
  · simp [hforeign]
  · simp [hforeign, hmarker, and_assoc]

/-! ## Readers -/

namespace Legible

variable {t n : Tree}

theorem of_mem (h : t.Legible) (hn : n ∈ t.preorder) : n.Legible := fun _ hx => h _ (preorder_subset hn hx)

theorem child (h : t.Legible) (hn : n ∈ t.children) : n.Legible := h.of_mem (child_mem_preorder hn)

theorem source_eq (h : t.Legible) : t.source = .ok t.written := by
  obtain ⟨s, hs⟩ := h t (self_mem_preorder t)
  rw [written, hs]
  rfl

theorem fieldSource_eq (h : t.Legible) (name : String) : t.fieldSource name = .ok (t.writtenField name) := by
  rw [fieldSource, writtenField]
  cases hc : t.fieldNamed? name with
  | none => rfl
  | some c => exact (h.child (List.mem_of_find?_eq_some hc)).source_eq

/-- a name is read from the name field, or else from the other node -/
theorem writtenName_eq (h : t.Legible) {other : Option Tree} (hother : ∀ c, other = some c → c ∈ t.children) :
    (do
      let name ← t.fieldSource "name"
      if name ≠ "" then return name
      match other with
      | none => return ""
      | some c => c.source) = Except.ok (ε := Fault) (t.writtenName other) := by
  rw [h.fieldSource_eq, writtenName]
  cases other with
  | none =>
    change (if _ then _ else _) = _
    split <;> rfl
  | some c =>
    have hc := (h.child (hother c rfl)).source_eq
    change (if _ then _ else c.source) = _
    rw [hc]
    split <;> rfl

theorem parameterName_eq (h : t.Legible) : t.parameterName = .ok t.writtenParameter :=
  h.writtenName_eq fun _ hc => List.mem_of_mem_filter (List.mem_of_getLast? hc)

theorem parameterNames_eq (h : t.Legible) : t.parameterNames = .ok t.writtenParameters :=
  mapM_eq_map fun _ hc => (h.child (List.mem_of_mem_filter hc)).parameterName_eq

theorem attributeName_eq (h : t.Legible) : t.attributeName = .ok t.writtenAttribute :=
  h.writtenName_eq fun _ hc => List.mem_of_find?_eq_some hc

theorem aimsElsewhere_eq (h : t.Legible) : t.aimsElsewhere = .ok (decide t.Foreign) := by
  unfold aimsElsewhere
  cases hc : t.children.find? fun c => c.kind == "attribute_target_specifier" with
  | none => simp [Foreign, hc]
  | some c =>
    have hsource := (h.child (List.mem_of_find?_eq_some hc)).source_eq
    simp [Foreign, hc, hsource, Except.map]

theorem listedClasses_eq (h : t.Legible) : t.listedClasses = .ok t.writtenClasses := by
  have hnames : (t.children.filter fun c => c.kind == "attribute").mapM attributeName =
      .ok ((t.children.filter fun c => c.kind == "attribute").map writtenAttribute) :=
    mapM_eq_map fun _ hc => (h.child (List.mem_of_mem_filter hc)).attributeName_eq
  rw [listedClasses, h.aimsElsewhere_eq, hnames, writtenClasses]
  by_cases hforeign : t.Foreign
  · rw [decide_eq_true hforeign, if_pos hforeign]
    rfl
  · rw [decide_eq_false hforeign, if_neg hforeign]
    rfl

/-- **Marks.** A declaration is marked when it bears the marker. -/
theorem isMarked_eq (h : t.Legible) {marker : String} (hmarker : marker ≠ "") :
    t.isMarked marker = .ok (decide (t.Bears marker)) := by
  have hlists : (t.children.filter fun c => c.kind == "attribute_list").mapM listedClasses =
      .ok ((t.children.filter fun c => c.kind == "attribute_list").map writtenClasses) :=
    mapM_eq_map fun _ hc => (h.child (List.mem_of_mem_filter hc)).listedClasses_eq
  rw [isMarked, attributeClasses, hlists]
  change Except.ok (List.contains (List.flatten _) marker) = _
  rw [List.contains_eq_mem]
  refine congrArg Except.ok (decide_eq_decide.2 ?_)
  rw [List.mem_flatten]
  constructor
  · rintro ⟨classes, hclasses, hmem⟩
    obtain ⟨list, hlist, rfl⟩ := List.mem_map.1 hclasses
    obtain ⟨hchild, hkind⟩ := List.mem_filter.1 hlist
    exact ⟨list, hchild, eq_of_beq hkind, (mem_writtenClasses hmarker).1 hmem⟩
  · rintro ⟨list, hchild, hkind, hlist⟩
    exact ⟨_, List.mem_map_of_mem (List.mem_filter.2 ⟨hchild, beq_iff_eq.2 hkind⟩), (mem_writtenClasses hmarker).2 hlist⟩

end Legible

/-! ## Errors -/

/-- There is an error in a tree when its reader says so, or when it says nothing and some node is one. -/
theorem hasFaults_iff (t : Tree) : t.hasFaults = true ↔
    t.errorFlag = some true ∨ t.errorFlag = none ∧ ∃ n ∈ t.preorder, n.isFault = true := by
  unfold hasFaults
  cases t.errorFlag with
  | some flag => simp
  | none =>
    rw [decide_eq_true_eq, countFaults, List.length_pos_iff_exists_mem]
    simp only [List.mem_filter, Place.walk_eq, reduceCtorEq, false_or, true_and]
    constructor
    · rintro ⟨p, hp, hfault⟩
      exact ⟨p.node, node_mem_preorder hp, hfault⟩
    · rintro ⟨n, hn, hfault⟩
      rw [← nodes_places []] at hn
      obtain ⟨p, hp, rfl⟩ := List.mem_map.1 hn
      exact ⟨p, hp, hfault⟩

end SignalWiring.Tree
