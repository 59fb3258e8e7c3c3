/-
What the text of a fragment tells.

The parts of a fragment stand one after the other without a mark of their kind. Each of them still ends where it must end
(`cut_unique`): a name before the first character that names do not have, a line before its line feed, a lookup table
because its entries read back. So two fragments with the same text have the same parts, from the front to the back; the
methods that connect and disconnect come last, and are the same because they only depend on the tables.

- `forwarded_injective`, `Factory.text_unique`, `factoriesText_injective`: parameters, one factory, several of them.
- `nameTable_unique`: a lookup table.
- `Slots.build_injective`: artifact, namespace and members.
- `Renderer.body_injective`: whether it is the root, the factories and the tables.
- `render_injective_iff`: texts are the same exactly when what they show is the same.
-/
import SignalWiring.Proofs.Decoding
import SignalWiring.Proofs.Fragments

namespace SignalWiring

/-! ## Where a text ends -/

/-- A text without a stop, up to a stop or to the end, is told by what it is followed by. -/
theorem cut_unique {stop : Char → Bool} {a b x y : List Char} (ha : ∀ c ∈ a, stop c = false)
    (hb : ∀ c ∈ b, stop c = false) (hx : ∀ c ∈ x.head?, stop c = true) (hy : ∀ c ∈ y.head?, stop c = true)
    (h : a ++ x = b ++ y) : a = b ∧ x = y := by
  have hcut : ∀ {front rest : List Char}, (∀ c ∈ front, stop c = false) → (∀ c ∈ rest.head?, stop c = true) →
      (front ++ rest).takeWhile (fun c => !stop c) = front := by
    intro front rest hfront hrest
    rw [List.takeWhile_append_of_pos fun c hc => by rw [hfront c hc]; rfl]
    cases rest with
    | nil => exact List.append_nil front
    | cons c rest => rw [List.takeWhile_cons_of_neg (by simp [hrest c rfl]), List.append_nil]
  have hfront : a = b := by
    rw [← hcut ha hx, h, hcut hb hy]
  subst hfront
  exact ⟨rfl, List.append_cancel_left h⟩

namespace Emission

/-- free of the characters that stand behind a name: a blank, a comma, a closing parenthesis -/
def Plain (name : String) : Prop := ∀ c ∈ name.toList, c ∉ [' ', ',', ')']

/-- a text of identifier characters is plain -/
theorem plain_of_identifier {name : String} (h : name.toList.all Text.isIdentifierPart = true) : Plain name := by
  intro c hc hstop
  have hpart := List.all_eq_true.1 h c hc
  have hnone : ([' ', ',', ')'].all fun s => !Text.isIdentifierPart s) = true := by decide
  have hmark := List.all_eq_true.1 hnone c hstop
  rw [hpart] at hmark
  cases hmark

theorem Plain.not_stop {name : String} (h : Plain name) {s : Char} (hs : s ∈ [' ', ',', ')']) :
    ∀ c ∈ name.toList, (c == s) = false := fun c hc =>
  beq_eq_false_iff_ne.2 fun hstop => h c hc (hstop ▸ hs)

/-! ## Factories -/

/-- the first part of a text, and then the others, each behind the separator -/
theorem toList_join_cons (separator part : String) (parts : List String) :
    (Text.join separator (part :: parts)).toList =
      part.toList ++ parts.flatMap fun p => separator.toList ++ p.toList := by
  induction parts generalizing part with
  | nil => simp [Text.join]
  | cons next rest ih =>
    rw [Text.join, String.intercalate_cons_cons, ← Text.join, String.toList_append, String.toList_append, ih next,
      List.flatMap_cons, List.append_assoc, List.append_assoc]

theorem toList_forwarded (parameters : List String) :
    (forwarded parameters).toList = parameters.flatMap fun p => ", ".toList ++ p.toList := by
  cases parameters with
  | nil => rfl
  | cons p rest =>
    change (", " ++ Text.join ", " (p :: rest)).toList = _
    rw [String.toList_append, toList_join_cons, List.flatMap_cons, List.append_assoc]

/-- another parameter begins with a comma -/
theorem head?_parameters (parameters : List String) :
    ∀ c ∈ (parameters.flatMap fun p => ", ".toList ++ p.toList).head?, (c == ',') = true := by
  intro c hc
  cases parameters with
  | nil => cases hc
  | cons p rest => cases hc; rfl

/-- there is no parenthesis in parameters -/
theorem parenthesis_not_mem {parameters : List String} (h : ∀ p ∈ parameters, Plain p) :
    ∀ c ∈ (parameters.flatMap fun p => ", ".toList ++ p.toList), (c == ')') = false := by
  intro c hc
  obtain ⟨p, hp, hmem⟩ := List.mem_flatMap.1 hc
  rcases List.mem_append.1 hmem with hcomma | hname
  · have hseparator : ')' ∉ ", ".toList := by decide
    exact beq_eq_false_iff_ne.2 fun hc => hseparator (hc ▸ hcomma)
  · exact (h p hp).not_stop (by decide) c hname

theorem parenthesis_not_mem_join {parameters : List String} (h : ∀ p ∈ parameters, Plain p) :
    ∀ c ∈ (Text.join ", " parameters).toList, (c == ')') = false := by
  cases parameters with
  | nil => exact fun c hc => nomatch hc
  | cons p rest =>
    rw [toList_join_cons]
    intro c hc
    rcases List.mem_append.1 hc with hname | hrest
    · exact (h p List.mem_cons_self).not_stop (by decide) c hname
    · exact parenthesis_not_mem (fun x hx => h x (List.mem_cons_of_mem _ hx)) c hrest

/-- A parameter ends where the next one begins, so parameters that are passed on are told by their text. -/
theorem forwarded_injective {ps qs : List String} (hp : ∀ p ∈ ps, Plain p) (hq : ∀ q ∈ qs, Plain q)
    (h : (forwarded ps).toList = (forwarded qs).toList) : ps = qs := by
  rw [toList_forwarded, toList_forwarded] at h
  induction ps generalizing qs with
  | nil =>
    cases qs with
    | nil => rfl
    | cons q qs => cases h
  | cons p ps ih =>
    cases qs with
    | nil => cases h
    | cons q qs =>
      rw [List.flatMap_cons, List.flatMap_cons, List.append_assoc, List.append_assoc] at h
      obtain ⟨hname, hrest⟩ := cut_unique ((hp p List.mem_cons_self).not_stop (by decide))
        ((hq q List.mem_cons_self).not_stop (by decide)) (head?_parameters ps) (head?_parameters qs)
        (List.append_cancel_left h)
      rw [String.toList_injective hname, ih (fun x hx => hp x (List.mem_cons_of_mem _ hx))
        (fun x hx => hq x (List.mem_cons_of_mem _ hx)) hrest]

/-- the names of the factory are plain -/
structure Factory.Plain (f : Factory) : Prop where
  handler : Emission.Plain f.handler
  event : Emission.Plain f.event
  parameters : ∀ p ∈ f.parameters, Emission.Plain p

theorem Factory.toList_text (f : Factory) : f.text.toList =
    "    private ".toList ++ (f.handler.toList ++ (" Get".toList ++ (f.handler.toList ++
      ("()\n    \x7b\n        return (".toList ++ ((Text.join ", " f.parameters).toList ++ (") => ".toList ++
        (f.dispatch.toList ++ ("(SignalName.".toList ++ (f.event.toList ++ ((forwarded f.parameters).toList ++
          ");\n    \x7d".toList)))))))))) := by
  have hopen : "()\n    \x7b\n        return (" = "()\n    \x7b\n" ++ "        return (" := by decide
  change ("    private " ++ f.handler ++ " Get" ++ f.handler ++ "()\n    \x7b\n" ++
    ("        return (" ++ Text.join ", " f.parameters ++ ") => " ++ f.dispatch ++ "(SignalName." ++ f.event ++
      forwarded f.parameters ++ ");\n    \x7d")).toList = _
  rw [hopen]
  simp only [String.toList_append, List.append_assoc]

/-- **One factory.** Its text tells the factory, whatever follows it. -/
theorem Factory.text_unique {f g : Factory} (hf : f.Plain) (hg : g.Plain) (hdispatch : f.dispatch = g.dispatch)
    {x y : List Char} (h : f.text.toList ++ x = g.text.toList ++ y) : f = g ∧ x = y := by
  simp only [Factory.toList_text, List.append_assoc] at h
  obtain ⟨hhandler, h⟩ := cut_unique (hf.handler.not_stop (s := ' ') (by decide)) (hg.handler.not_stop (by decide))
    (by rintro _ ⟨⟩; rfl) (by rintro _ ⟨⟩; rfl) (List.append_cancel_left h)
  rw [hhandler, hdispatch] at h
  obtain ⟨-, h⟩ := cut_unique (parenthesis_not_mem_join hf.parameters) (parenthesis_not_mem_join hg.parameters)
    (by rintro _ ⟨⟩; rfl) (by rintro _ ⟨⟩; rfl)
    (List.append_cancel_left (List.append_cancel_left (List.append_cancel_left h)))
  have hstop : ∀ {name : String}, Emission.Plain name → ∀ c ∈ name.toList, (c == ',' || c == ')') = false :=
    fun hname c hc => Bool.or_eq_false_iff.2 ⟨hname.not_stop (by decide) c hc, hname.not_stop (by decide) c hc⟩
  have hnext : ∀ (ps : List String) (rest : List Char),
      ∀ c ∈ ((forwarded ps).toList ++ (");\n    \x7d".toList ++ rest)).head?, (c == ',' || c == ')') = true := by
    intro ps rest c hc
    rw [toList_forwarded] at hc
    cases ps with
    | nil => cases hc; rfl
    | cons p ps => cases hc; rfl
  obtain ⟨hevent, h⟩ := cut_unique (hstop hf.event) (hstop hg.event) (hnext _ _) (hnext _ _)
    (List.append_cancel_left (List.append_cancel_left (List.append_cancel_left h)))
  obtain ⟨hforwarded, h⟩ := cut_unique (by rw [toList_forwarded]; exact parenthesis_not_mem hf.parameters)
    (by rw [toList_forwarded]; exact parenthesis_not_mem hg.parameters) (by rintro _ ⟨⟩; rfl) (by rintro _ ⟨⟩; rfl) h
  have hparameters := forwarded_injective hf.parameters hg.parameters hforwarded
  refine ⟨?_, List.append_cancel_left h⟩
  obtain ⟨handler, event, parameters, dispatch⟩ := f
  obtain rfl := String.toList_injective hhandler
  obtain rfl := String.toList_injective hevent
  obtain rfl : parameters = g.parameters := hparameters
  obtain rfl : dispatch = g.dispatch := hdispatch
  rfl

/-- factories one after the other, each with a free line behind it -/
def factoriesText (fs : List Factory) : List Char := fs.flatMap fun f => f.text.toList ++ "\n\n".toList

/-- **Factories.** Their texts tell them all. -/
theorem factoriesText_injective {dispatch : String} {fs gs : List Factory}
    (hf : ∀ f ∈ fs, f.Plain ∧ f.dispatch = dispatch) (hg : ∀ g ∈ gs, g.Plain ∧ g.dispatch = dispatch)
    (h : factoriesText fs = factoriesText gs) : fs = gs := by
  induction fs generalizing gs with
  | nil =>
    cases gs with
    | nil => rfl
    | cons g gs =>
      rw [factoriesText, factoriesText, List.flatMap_nil, List.flatMap_cons, Factory.toList_text] at h
      cases h
  | cons f fs ih =>
    cases gs with
    | nil =>
      rw [factoriesText, factoriesText, List.flatMap_nil, List.flatMap_cons, Factory.toList_text] at h
      cases h
    | cons g gs =>
      rw [factoriesText, factoriesText, List.flatMap_cons, List.flatMap_cons, List.append_assoc, List.append_assoc] at h
      obtain ⟨hplain, hdispatch⟩ := hf f List.mem_cons_self
      obtain ⟨hplain', hdispatch'⟩ := hg g List.mem_cons_self
      obtain ⟨rfl, hrest⟩ := Factory.text_unique hplain hplain' (hdispatch.trans hdispatch'.symm) h
      rw [ih (fun x hx => hf x (List.mem_cons_of_mem _ hx)) (fun x hx => hg x (List.mem_cons_of_mem _ hx))
        (List.append_cancel_left hrest)]

/-! ## Lookup tables -/

/-- **A table.** Its text tells its items, whatever follows it. -/
theorem nameTable_unique {t u : IdTable} {x y : List Char}
    (h : (nameTable t).text.toList ++ x = (nameTable u).text.toList ++ y) : t.items = u.items ∧ x = y := by
  have hread := LookupTable.readNames_nameTable t x
  rw [h, LookupTable.readNames_nameTable u y] at hread
  obtain ⟨hitems, hrest⟩ := Prod.mk.inj (Option.some.inj hread)
  exact ⟨List.map_injective_iff.2 Prod.swap_injective hitems.symm, hrest.symm⟩

/-- a table is told from a factory by the second letter -/
theorem nameTable_ne_factory (t : IdTable) (f : Factory) (x y : List Char) :
    (nameTable t).text.toList ++ x ≠ f.text.toList ++ y := by
  intro h
  obtain ⟨close, htext, -⟩ := LookupTable.toList_text (nameTable t)
  have hstart : ∀ rest, "    private ".toList ++ rest = "    ".toList ++ ("private ".toList ++ rest) := fun _ => rfl
  rw [htext, Factory.toList_text, List.append_assoc, List.append_assoc, hstart] at h
  have hkeyword := List.append_cancel_left h
  unfold LookupTable.declaration at hkeyword
  simp only [String.toList_append, List.append_assoc] at hkeyword
  cases hkeyword

/-! ## Slots -/

namespace Slots

/-- the members of the class -/
def body (s : Slots) : String := Text.join "\n\n" (s.fields ++ s.factories ++ s.methods)

/-- the line of the namespace and the free line behind it -/
def spaceText (s : Slots) : List Char :=
  if s.namespaceName = "" then [] else "namespace ".toList ++ ((s.namespaceName.toList ++ ";".toList) ++ "\n\n".toList)

/-- what stands between the braces of the class -/
def bodyText (s : Slots) : List Char := if s.body = "" then [] else s.body.toList ++ "\n".toList

theorem body_of_bodyText {s u : Slots} (h : s.bodyText = u.bodyText) : s.body = u.body := by
  have hline : ∀ text : String, [] ≠ text.toList ++ "\n".toList := fun text h =>
    List.append_ne_nil_of_right_ne_nil text.toList (by decide) h.symm
  rw [bodyText, bodyText] at h
  split_ifs at h with hs hu hu
  · exact hs.trans hu.symm
  · exact absurd h (hline u.body)
  · exact absurd h.symm (hline s.body)
  · exact String.toList_injective (List.append_cancel_right h)

theorem toList_classText (s : Slots) : s.classText.toList =
    "public partial class ".toList ++ (s.container.toList ++ ("\n\x7b\n".toList ++ (s.bodyText ++ "\x7d".toList))) := by
  have hopen : ∀ rest, (s!"public partial class {s.container}\n\x7b" : String).toList ++ ("\n".toList ++ rest) =
      "public partial class ".toList ++ (s.container.toList ++ ("\n\x7b\n".toList ++ rest)) := by
    intro rest
    change ("public partial class " ++ s.container ++ "\n\x7b").toList ++ _ = _
    simp only [String.toList_append, List.append_assoc]
    rfl
  rw [classText, ← body, bodyText]
  split_ifs with hbody
  · simp only [List.append_nil, List.cons_append, List.nil_append, toList_join_cons, List.flatMap_cons, List.flatMap_nil,
      hopen]
  · simp only [List.append_nil, List.cons_append, List.nil_append, toList_join_cons, List.flatMap_cons, List.flatMap_nil,
      List.append_assoc, hopen]

/-- a fragment, with its artifact up to the end of the line -/
theorem toList_build (s : Slots) : s.build.toList =
    "// <auto-generated>\n//     Generated by behaviorgen from ".toList ++ ((s.artifact.toList ++
      ". Do not edit.".toList) ++ ("\n// </auto-generated>\n\n".toList ++ (s.spaceText ++ (s.classText.toList ++
        "\n".toList)))) := by
  have hheader : ∀ rest, (header s.artifact).toList ++ ("\n\n".toList ++ rest) =
      "// <auto-generated>\n//     Generated by behaviorgen from ".toList ++ ((s.artifact.toList ++
        ". Do not edit.".toList) ++ ("\n// </auto-generated>\n\n".toList ++ rest)) := by
    intro rest
    have hend : ". Do not edit.\n// </auto-generated>" = ". Do not edit." ++ "\n// </auto-generated>" := by decide
    change ("// <auto-generated>\n//     Generated by behaviorgen from " ++ s.artifact ++
      ". Do not edit.\n// </auto-generated>").toList ++ _ = _
    rw [hend]
    simp only [String.toList_append, List.append_assoc]
    rfl
  rw [build, String.toList_append, spaceText]
  split_ifs with hspace
  · simp only [List.append_nil, List.cons_append, List.nil_append, toList_join_cons, List.flatMap_cons, List.flatMap_nil,
      List.append_assoc, hheader]
  · have hline : (s!"namespace {s.namespaceName};" : String) = "namespace " ++ s.namespaceName ++ ";" := rfl
    simp only [List.append_nil, List.cons_append, List.nil_append, toList_join_cons, List.flatMap_cons, List.flatMap_nil,
      List.append_assoc, hheader, hline, String.toList_append]

/-- a text without line feeds has none behind it either, if what is put there has none -/
theorem not_mem_append {name : String} {last : List Char} (h : '\n' ∉ name.toList) (hlast : '\n' ∉ last) :
    ∀ c ∈ name.toList ++ last, (c == '\n') = false := by
  intro c hc
  refine beq_eq_false_iff_ne.2 fun hstop => ?_
  rcases List.mem_append.1 (hstop ▸ hc) with hname | hend
  · exact h hname
  · exact hlast hend

/-- **Slots.** In the same container, the text of a fragment tells its artifact, its namespace and its members. -/
theorem build_injective {s u : Slots} (hcontainer : s.container = u.container) (hs : '\n' ∉ s.artifact.toList)
    (hu : '\n' ∉ u.artifact.toList) (hspace : '\n' ∉ s.namespaceName.toList) (hspace' : '\n' ∉ u.namespaceName.toList)
    (h : s.build = u.build) : s.artifact = u.artifact ∧ s.namespaceName = u.namespaceName ∧ s.body = u.body := by
  have hlist := congrArg String.toList h
  rw [toList_build, toList_build] at hlist
  obtain ⟨hartifact, hlist⟩ := cut_unique (not_mem_append hs (by decide)) (not_mem_append hu (by decide))
    (by rintro _ ⟨⟩; rfl) (by rintro _ ⟨⟩; rfl) (List.append_cancel_left hlist)
  have hrest := List.append_cancel_left hlist
  -- a namespace is told from the class by its first letter
  have hnamespace : s.namespaceName = u.namespaceName ∧ s.classText.toList = u.classText.toList := by
    rw [spaceText, spaceText] at hrest
    split_ifs at hrest with hnone hnone' hnone'
    · exact ⟨hnone.trans hnone'.symm, List.append_cancel_right hrest⟩
    · rw [toList_classText] at hrest
      cases hrest
    · rw [toList_classText u] at hrest
      cases hrest
    · rw [List.append_assoc "namespace ".toList, List.append_assoc "namespace ".toList,
        List.append_assoc (_ ++ ";".toList), List.append_assoc (_ ++ ";".toList)] at hrest
      obtain ⟨hline, hrest⟩ := cut_unique (not_mem_append hspace (by decide)) (not_mem_append hspace' (by decide))
        (by rintro _ ⟨⟩; rfl) (by rintro _ ⟨⟩; rfl) (List.append_cancel_left hrest)
      exact ⟨String.toList_injective (List.append_cancel_right hline),
        List.append_cancel_right (List.append_cancel_left hrest)⟩
  refine ⟨String.toList_injective (List.append_cancel_right hartifact), hnamespace.1, ?_⟩
  have hbody := hnamespace.2
  rw [toList_classText, toList_classText, hcontainer] at hbody
  exact body_of_bodyText (List.append_cancel_right (List.append_cancel_left
    (List.append_cancel_left (List.append_cancel_left hbody))))

end Slots

/-! ## Members -/

theorem factoriesText_cons (f : Factory) (fs : List Factory) :
    factoriesText (f :: fs) = f.text.toList ++ ("\n\n".toList ++ factoriesText fs) := by
  rw [factoriesText, List.flatMap_cons, List.append_assoc, factoriesText]

/-- the free lines may stand in front of factories or behind them -/
theorem flatMap_factories (fs : List Factory) (rest : List Char) :
    ((fs.map Factory.text).flatMap fun p => "\n\n".toList ++ p.toList) ++ ("\n\n".toList ++ rest) =
      "\n\n".toList ++ (factoriesText fs ++ rest) := by
  induction fs with
  | nil => rfl
  | cons f fs ih =>
    rw [List.map_cons, List.flatMap_cons, List.append_assoc, List.append_assoc, ih, factoriesText_cons, List.append_assoc,
      List.append_assoc]

namespace Renderer

variable {r : Renderer} {c d : Context} {t u : IdTable}

theorem toList_body_root (r : Renderer) (c : Context) (t : IdTable) : (r.slots c true t).body.toList =
    (nameTable t).text.toList ++ ("\n\n".toList ++ ((idTable t).text.toList ++ ("\n\n".toList ++
      (factoriesText (r.factories c) ++ ((r.connect t).text.toList ++ ("\n\n".toList ++
        (r.disconnect t).text.toList)))))) := by
  have hbody : (r.slots c true t).body = Text.join "\n\n" ((nameTable t).text :: (idTable t).text ::
      ((r.factories c).map Factory.text ++ [(r.connect t).text, (r.disconnect t).text])) := rfl
  rw [hbody, toList_join_cons, List.flatMap_cons, List.flatMap_append, List.flatMap_cons, List.flatMap_singleton,
    List.append_assoc, List.append_assoc, flatMap_factories]

theorem body_of_none (t : IdTable) (h : r.factories c = []) : (r.slots c false t).body = "" := by
  simp only [Slots.body, slots, h]
  rfl

theorem toList_body_of_some (t : IdTable) (h : r.factories c ≠ []) :
    (r.slots c false t).body.toList ++ "\n\n".toList = factoriesText (r.factories c) := by
  have hbody : (r.slots c false t).body = Text.join "\n\n" ((r.factories c).map Factory.text) := by
    simp only [Slots.body, slots, Bool.false_eq_true, if_false, List.nil_append, List.append_nil]
  obtain ⟨f, fs, hfs⟩ := List.exists_cons_of_ne_nil h
  have hshift := flatMap_factories fs []
  rw [List.append_nil, List.append_nil] at hshift
  rw [hbody, hfs, List.map_cons, toList_join_cons, List.append_assoc, hshift, factoriesText_cons]

/-- the members of the root are told from those of any other fragment -/
theorem body_root_ne (r : Renderer) (c d : Context) (t u : IdTable) :
    (r.slots c true t).body ≠ (r.slots d false u).body := by
  intro h
  have hlist := congrArg String.toList h
  rw [toList_body_root] at hlist
  cases hd : r.factories d with
  | nil =>
    rw [body_of_none u hd] at hlist
    obtain ⟨close, htext, -⟩ := LookupTable.toList_text (nameTable t)
    rw [htext] at hlist
    cases hlist
  | cons f fs =>
    have hothers := toList_body_of_some u (hd ▸ List.cons_ne_nil f fs)
    rw [← hlist, hd, factoriesText_cons, List.append_assoc] at hothers
    exact nameTable_ne_factory t f _ _ hothers

/-- every factory of the renderer calls its dispatch method -/
theorem dispatch_of_mem {f : Factory} (h : f ∈ r.factories c) : f.dispatch = r.config.dispatch := by
  obtain ⟨handler, -, rfl⟩ := List.mem_map.1 h
  rfl

/-- the texts of its factories tell the factories of the renderer -/
theorem factories_of_text (hc : ∀ f ∈ r.factories c, f.Plain) (hd : ∀ f ∈ r.factories d, f.Plain)
    (h : factoriesText (r.factories c) = factoriesText (r.factories d)) : r.factories c = r.factories d :=
  factoriesText_injective (fun f hf => ⟨hc f hf, dispatch_of_mem hf⟩) (fun f hf => ⟨hd f hf, dispatch_of_mem hf⟩) h

theorem factories_of_body_root (hc : ∀ f ∈ r.factories c, f.Plain) (hd : ∀ f ∈ r.factories d, f.Plain)
    (h : (r.slots c true t).body = (r.slots d true u).body) : r.factories c = r.factories d ∧ t.items = u.items := by
  have hitems : t.items = u.items := by
    have hlist := congrArg String.toList h
    rw [toList_body_root, toList_body_root] at hlist
    exact (nameTable_unique hlist).1
  -- now the tables and the methods are the same on both sides
  rw [← slots_of_items d true hitems] at h
  have hlist := congrArg String.toList h
  rw [toList_body_root, toList_body_root] at hlist
  exact ⟨factories_of_text hc hd (List.append_cancel_right (List.append_cancel_left (List.append_cancel_left
    (List.append_cancel_left (List.append_cancel_left hlist))))), hitems⟩

theorem factories_of_body_other (hc : ∀ f ∈ r.factories c, f.Plain) (hd : ∀ f ∈ r.factories d, f.Plain)
    (h : (r.slots c false t).body = (r.slots d false u).body) : r.factories c = r.factories d := by
  have hlist := congrArg (·.toList ++ "\n\n".toList) h
  have hsome : ∀ {e : Context}, r.factories e ≠ [] → factoriesText (r.factories e) ≠ "".toList ++ "\n\n".toList := by
    intro e he hnone
    obtain ⟨f, fs, hfs⟩ := List.exists_cons_of_ne_nil he
    rw [hfs, factoriesText_cons, Factory.toList_text] at hnone
    cases hnone
  by_cases hnone : r.factories c = [] <;> by_cases hnone' : r.factories d = []
  · rw [hnone, hnone']
  · rw [body_of_none t hnone, toList_body_of_some u hnone'] at hlist
    exact absurd hlist.symm (hsome hnone')
  · rw [body_of_none u hnone', toList_body_of_some t hnone] at hlist
    exact absurd hlist (hsome hnone)
  · rw [toList_body_of_some t hnone, toList_body_of_some u hnone'] at hlist
    exact factories_of_text hc hd hlist

/-- **Members.** They tell whether the fragment is that of the root, the factories, and the items of the table if it is. -/
theorem body_injective {isRoot isRoot' : Bool} (hc : ∀ f ∈ r.factories c, f.Plain) (hd : ∀ f ∈ r.factories d, f.Plain)
    (h : (r.slots c isRoot t).body = (r.slots d isRoot' u).body) :
    isRoot = isRoot' ∧ r.factories c = r.factories d ∧ (isRoot = true → t.items = u.items) := by
  cases isRoot with
  | true =>
    cases isRoot' with
    | true =>
      obtain ⟨hfactories, hitems⟩ := factories_of_body_root hc hd h
      exact ⟨rfl, hfactories, fun _ => hitems⟩
    | false => exact absurd h (body_root_ne r c d t u)
  | false =>
    cases isRoot' with
    | true => exact absurd h.symm (body_root_ne r d c u t)
    | false => exact ⟨rfl, factories_of_body_other hc hd h, fun hroot => nomatch hroot⟩

theorem render_eq_ok {isRoot : Bool} {limit : Option ℕ} {source : String}
    (h : r.render c isRoot t limit = .ok source) : source = (r.slots c isRoot t).build := by
  obtain ⟨ids, -, h⟩ := bind_eq_ok h
  obtain ⟨_, -, h⟩ := bind_eq_ok h
  cases h
  rfl

/-- factories tell their handlers, but for where these were declared -/
theorem handlers_of_factories (h : r.factories c = r.factories d) :
    c.handlers.map Handler.bare = d.handlers.map Handler.bare := by
  have hpairs : List.Forall₂ (· = ·) (r.factories c) (r.factories d) := by
    rw [List.forall₂_eq_eq_eq]
    exact h
  rw [factories, factories, List.forall₂_map_left_iff, List.forall₂_map_right_iff] at hpairs
  have hbare : List.Forall₂ (· = ·) (c.handlers.map Handler.bare) (d.handlers.map Handler.bare) := by
    rw [List.forall₂_map_left_iff, List.forall₂_map_right_iff]
    refine hpairs.imp fun a b hab => ?_
    obtain ⟨hname, hevent, hparameters, -⟩ := Factory.mk.inj hab
    exact Handler.ext hname hevent hparameters rfl
  rwa [List.forall₂_eq_eq_eq] at hbare

end Renderer

/-! ## Fragments -/

/-- the names of a context end where they must: at a line feed or at what stands behind a name -/
structure Printable (c : Context) : Prop where
  artifact : '\n' ∉ c.artifact.toList
  namespaceName : '\n' ∉ c.namespaceName.toList
  handlers : ∀ h ∈ c.handlers, ∀ name ∈ h.name :: h.event :: h.parameters, Plain name

/-- names of identifier characters are enough -/
theorem printable_of_identifiers {c : Context} (hartifact : '\n' ∉ c.artifact.toList)
    (hnamespace : '\n' ∉ c.namespaceName.toList)
    (hnames : ∀ h ∈ c.handlers, ∀ name ∈ h.name :: h.event :: h.parameters,
      name.toList.all Text.isIdentifierPart = true) : Printable c :=
  ⟨hartifact, hnamespace, fun h hh name hname => plain_of_identifier (hnames h hh name hname)⟩

theorem Printable.factories {c : Context} (h : Printable c) (r : Renderer) : ∀ f ∈ r.factories c, f.Plain := by
  intro f hf
  obtain ⟨handler, hmem, rfl⟩ := List.mem_map.1 hf
  have hnames := h.handlers handler hmem
  exact ⟨hnames _ List.mem_cons_self, hnames _ (List.mem_cons_of_mem _ List.mem_cons_self),
    fun p hp => hnames p (List.mem_cons_of_mem _ (List.mem_cons_of_mem _ hp))⟩

/-- **Injectivity.** Under any configuration and any limits on digits, two fragments have the same text exactly when they show
the same: the contexts have the same artifact, the same namespace and the same handlers in the same order, each with its
name, event and parameters, both fragments or neither are that of the root, and if they are, the tables have the same
items. -/
theorem render_injective_iff (r : Renderer) {c d : Context} {isRoot isRoot' : Bool} {t u : IdTable}
    {limit limit' : Option ℕ} {source source' : String} (hc : Printable c) (hd : Printable d)
    (h : r.render c isRoot t limit = .ok source) (h' : r.render d isRoot' u limit' = .ok source') :
    source = source' ↔ c.bare = d.bare ∧ isRoot = isRoot' ∧ (isRoot = true → t.items = u.items) := by
  rw [Renderer.render_eq_ok h, Renderer.render_eq_ok h']
  constructor
  · intro hbuild
    obtain ⟨hartifact, hnamespace, hbody⟩ := Slots.build_injective (s := r.slots c isRoot t) (u := r.slots d isRoot' u) rfl
      hc.artifact hd.artifact hc.namespaceName hd.namespaceName hbuild
    obtain ⟨hroot, hfactories, hitems⟩ := Renderer.body_injective (hc.factories r) (hd.factories r) hbody
    exact ⟨Context.ext hnamespace hartifact (Renderer.handlers_of_factories hfactories), hroot, hitems⟩
  · rintro ⟨hbare, rfl, hitems⟩
    rw [← Renderer.slots_bare, hbare, Renderer.slots_bare]
    cases isRoot with
    | true => rw [Renderer.slots_of_items d true (hitems rfl)]
    | false => rw [Renderer.slots_of_other r d t u]

/-! ### One parameter more -/

namespace Sample

/-- the root, with a delegate of one parameter -/
def leaping : Context := { speaking with handlers := [Assignment.Sample.jumped] }

/-- the root, with one parameter more -/
def falling : Context :=
  { speaking with handlers := [{ Assignment.Sample.jumped with
      parameters := ["height", "speed"], parameters_distinct := by decide, parameters_named := by decide }] }

theorem printable_leaping : Printable leaping :=
  printable_of_identifiers (by decide) (by decide) (by decide)

theorem printable_falling : Printable falling :=
  printable_of_identifiers (by decide) (by decide) (by decide)

end Sample

theorem render_injective_sample :
    Printable Sample.leaping ∧ Printable Sample.falling ∧
    ∃ source source', Renderer.render {} Sample.leaping true Sample.spoken = .ok source ∧
      Renderer.render {} Sample.falling true Sample.spoken = .ok source' ∧ source ≠ source' := by
  have h : Renderer.render {} Sample.leaping true Sample.spoken = .ok (Renderer.slots {} Sample.leaping true
      Sample.spoken).build := rfl
  have h' : Renderer.render {} Sample.falling true Sample.spoken = .ok (Renderer.slots {} Sample.falling true
      Sample.spoken).build := rfl
  refine ⟨Sample.printable_leaping, Sample.printable_falling, _, _, h, h', fun hsame => ?_⟩
  have hshown := (render_injective_iff {} Sample.printable_leaping Sample.printable_falling h h').1 hsame
  exact absurd hshown.1 (by decide)

end Emission

end SignalWiring
