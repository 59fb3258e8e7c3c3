/-
Texts that show as they stand.

What an escaped text shows is made of its pieces, and three things can happen to them: a backslash before a bracket
vanishes, a code becomes a picture, and a backslash is added at the end. A text that has nothing of this in it is `Literal`.
Literal texts show as they stand, and no other text does. A picture takes two colons away and brings none
(`count_pictures`), so what shows has as many colons as the text only if there are no pictures. Without pictures it differs
from the text where the first backslash vanishes (`flatMap_dropBackslash_cancel`), whatever comes at the end.

- `flatMap_interpreted_iff`: no change makes up for another one.
- `shown_escape`, `shown_escape_iff`: what a text shows, and which texts show as they stand.
- `pictures_location`: locations, whose line number is a code.
-/
import SignalWiring.Proofs.Escaping

namespace SignalWiring.Report.Markup

/-! ## Literal texts -/

/-- nothing in a text is taken for markup -/
structure Literal (gallery : Gallery) (cs : List Char) : Prop where
  /-- it does not end in a single backslash -/
  ending : trailing cs ≠ 1
  /-- no backslash stands before a bracket that opens no tag -/
  brackets : ∀ p ∈ pieces [] cs, ¬['\\', '['] <:+: p
  /-- no code has a picture -/
  codes : ∀ p ∈ pieces [] cs, ∀ name ∈ codes p, gallery name = none

section Shown

variable {gallery : Gallery} {cs p : List Char} {ps : List (List Char)} {n : ℕ}

theorem dropBackslash_cancel {r r' : List Char} (h : dropBackslash p ++ r = p ++ r') : dropBackslash p = p ∧ r = r' := by
  induction p using dropBackslash.induct with
  | case1 => exact ⟨rfl, h⟩
  | case2 rest ih =>
    rw [dropBackslash] at h
    exact absurd (List.cons.inj h).1 (by decide)
  | case3 c rest hother ih =>
    have hcons : dropBackslash (c :: rest) = c :: dropBackslash rest :=
      dropBackslash_cons hother
    rw [hcons] at h ⊢
    obtain ⟨hrest, hr⟩ := ih (List.cons.inj h).2
    exact ⟨congrArg (c :: ·) hrest, hr⟩

/-- Dropping backslashes from some pieces is not made up for by anything after them. -/
theorem flatMap_dropBackslash_cancel {r r' : List Char} (h : ps.flatMap dropBackslash ++ r = ps.flatten ++ r') :
    (∀ p ∈ ps, dropBackslash p = p) ∧ r = r' := by
  induction ps with
  | nil => exact ⟨fun p hp => (nomatch hp), h⟩
  | cons p rest ih =>
    rw [List.flatMap_cons, List.flatten_cons, List.append_assoc, List.append_assoc] at h
    obtain ⟨hp, h⟩ := dropBackslash_cancel h
    obtain ⟨hrest, hr⟩ := ih h
    exact ⟨List.forall_mem_cons.2 ⟨hp, hrest⟩, hr⟩

theorem dropBackslash_eq_self_iff : dropBackslash p = p ↔ ¬['\\', '['] <:+: p := by
  induction p using dropBackslash.induct with
  | case1 => simp [dropBackslash]
  | case2 rest ih =>
    refine iff_of_false (fun h => ?_) (not_not_intro ⟨[], rest, rfl⟩)
    rw [dropBackslash] at h
    exact absurd (List.cons.inj h).1 (by decide)
  | case3 c rest hother ih =>
    have hstart : ¬['\\', '['] <+: c :: rest := by
      rintro ⟨more, hmore⟩
      obtain ⟨hc, hrest⟩ := List.cons.inj hmore
      exact hother more hc.symm hrest.symm
    rw [dropBackslash_cons hother, List.cons_inj_right, ih,
      List.infix_cons_iff, not_or]
    exact ⟨fun h => ⟨hstart, h⟩, And.right⟩

theorem count_dropBackslash (p : List Char) : (dropBackslash p).count ':' = p.count ':' := by
  induction p using dropBackslash.induct with
  | case1 => rfl
  | case2 rest ih => simp [dropBackslash, ih]
  | case3 c rest hother ih =>
    rw [dropBackslash_cons hother, List.count_cons, List.count_cons, ih]

/-- a character that is shown and stays on its line: no control that a terminal acts upon, and no blank but a space -/
def IsPlain (c : Char) : Prop := isAction c = false ∧ (Text.isBlank c = true → c = ' ')

/-- what pictures are: there is no colon in them, and they stay on their line -/
structure Gallery.Lawful (gallery : Gallery) : Prop where
  colon : ∀ name text, gallery name = some text → ':' ∉ text
  plain : ∀ name text, gallery name = some text → ∀ c ∈ text, IsPlain c

/-- the number of codes that have a picture -/
def pictured (gallery : Gallery) (p : List Char) : ℕ := (codes p).countP fun name => (gallery name).isSome

/-- **Colons.** Every code that becomes a picture takes two colons away. -/
theorem count_pictures (h : gallery.Lawful) (p : List Char) :
    (pictures gallery p).count ':' + 2 * pictured gallery p = p.count ':' := by
  induction p using codes.induct with
  | case1 => simp [pictures, pictured, codes]
  | case2 rest hname ih =>
    rw [pictures_of_none hname, pictured, codes_of_none hname, List.count_cons_self, List.count_cons_self, ← ih,
      pictured]
    omega
  | case3 rest name after hname ih =>
    obtain ⟨rfl, hfree⟩ := append_of_codeName? hname
    have hname' : name.count ':' = 0 := List.count_eq_zero.2 hfree
    rw [pictures_of_some hname, pictured, codes_of_some hname, List.count_append, List.countP_cons,
      List.count_cons_self, List.count_append, List.count_cons_self, hname', ← ih, pictured]
    cases hpicture : gallery name with
    | none =>
      have hshown : (':' :: (name ++ [':'])).count ':' = 2 := by simp [hname']
      rw [Option.getD_none, hshown]
      simp only [Option.isSome_none, Bool.false_eq_true, if_false]
      omega
    | some text =>
      rw [Option.getD_some, List.count_eq_zero.2 (h.colon name text hpicture)]
      simp only [Option.isSome_some, if_true]
      omega
  | case4 c rest hc ih =>
    rw [pictures_of_other hc, pictured, codes_of_other hc, List.count_cons_of_ne hc, List.count_cons_of_ne hc]
    exact ih

theorem pictured_eq_zero_iff : pictured gallery p = 0 ↔ ∀ name ∈ codes p, gallery name = none := by
  simp [pictured, List.countP_eq_zero]

/-- without pictures for its codes a text is what it is -/
theorem pictures_eq_self (h : ∀ name ∈ codes p, gallery name = none) : pictures gallery p = p := by
  induction p using codes.induct with
  | case1 => rw [pictures]
  | case2 rest hname ih =>
    rw [codes_of_none hname] at h
    rw [pictures_of_none hname, ih h]
  | case3 rest name after hname ih =>
    rw [codes_of_some hname, List.forall_mem_cons] at h
    rw [pictures_of_some hname, h.1, Option.getD_none, ih h.2]
    obtain ⟨rfl, -⟩ := append_of_codeName? hname
    simp
  | case4 c rest hc ih =>
    rw [codes_of_other hc] at h
    rw [pictures_of_other hc, ih h]

/-- so it is with pieces, in which backslashes have vanished before -/
theorem count_flatMap_interpreted (h : gallery.Lawful) (ps : List (List Char)) :
    (ps.flatMap (interpreted gallery)).count ':' + 2 * (ps.map fun p => pictured gallery (dropBackslash p)).sum =
      ps.flatten.count ':' := by
  induction ps with
  | nil => rfl
  | cons p rest ih =>
    have hp := count_pictures h (dropBackslash p)
    rw [count_dropBackslash] at hp
    rw [List.flatMap_cons, List.map_cons, List.sum_cons, List.flatten_cons, List.count_append, List.count_append,
      ← ih, ← hp, interpreted]
    omega

/-- **No change makes up for another one.** Pieces, with some backslashes after them, show as they stand exactly when
there are no such backslashes and nothing in the pieces is interpreted. -/
theorem flatMap_interpreted_iff (h : gallery.Lawful) (ps : List (List Char)) (n : ℕ) :
    ps.flatMap (interpreted gallery) ++ List.replicate n '\\' = ps.flatten ↔
      n = 0 ∧ (∀ p ∈ ps, ¬['\\', '['] <:+: p) ∧ ∀ p ∈ ps, ∀ name ∈ codes p, gallery name = none := by
  constructor
  · intro hshown
    -- no colon has gone, so no code has become a picture
    have hnone : (ps.map fun p => pictured gallery (dropBackslash p)).sum = 0 := by
      have hcount := congrArg (List.count ':') hshown
      have hcolons := count_flatMap_interpreted h ps
      rw [List.count_append, List.count_replicate, if_neg (by decide)] at hcount
      omega
    have hcodes : ∀ p ∈ ps, ∀ name ∈ codes (dropBackslash p), gallery name = none := fun p hp =>
      pictured_eq_zero_iff.1 (List.sum_eq_zero_iff.1 hnone _ (List.mem_map_of_mem hp))
    have hdropped : ps.flatMap (interpreted gallery) = ps.flatMap dropBackslash :=
      List.flatMap_congr fun p hp => pictures_eq_self (hcodes p hp)
    rw [hdropped, ← List.append_nil ps.flatten] at hshown
    obtain ⟨hkept, hend⟩ := flatMap_dropBackslash_cancel hshown
    refine ⟨(List.replicate_eq_nil_iff _).1 hend, fun p hp => dropBackslash_eq_self_iff.1 (hkept p hp), fun p hp => ?_⟩
    rw [← hkept p hp]
    exact hcodes p hp
  · rintro ⟨rfl, hbrackets, hcodes⟩
    have hsame : ps.flatMap (interpreted gallery) = ps.flatMap id := by
      refine List.flatMap_congr fun p hp => ?_
      rw [interpreted, dropBackslash_eq_self_iff.2 (hbrackets p hp), pictures_eq_self (hcodes p hp), id]
    rw [hsame, List.flatMap_id, List.replicate_zero, List.append_nil]

/-! ## Characters -/

/-- a character of a picture, if it is not one of the text -/
theorem mem_of_mem_pictures {P : Char → Prop} (hgallery : ∀ name text, gallery name = some text → ∀ c ∈ text, P c)
    (h : ∀ c ∈ p, P c) : ∀ c ∈ pictures gallery p, P c := by
  induction p using codes.induct with
  | case1 =>
    rw [pictures]
    exact h
  | case2 rest hname ih =>
    rw [pictures_of_none hname]
    exact List.forall_mem_cons.2 ⟨h ':' List.mem_cons_self, ih fun d hd => h d (List.mem_cons_of_mem _ hd)⟩
  | case3 rest name after hname ih =>
    obtain ⟨rfl, -⟩ := append_of_codeName? hname
    rw [pictures_of_some hname]
    intro c hc
    rcases List.mem_append.1 hc with hc | hc
    · cases hpicture : gallery name with
      | none =>
        rw [hpicture, Option.getD_none] at hc
        refine h c ?_
        simp only [List.mem_cons, List.mem_append, List.not_mem_nil, or_false] at hc ⊢
        tauto
      | some text =>
        rw [hpicture, Option.getD_some] at hc
        exact hgallery name text hpicture c hc
    · exact ih (fun d hd => h d (List.mem_cons_of_mem _ (List.mem_append_right _ (List.mem_cons_of_mem _ hd)))) c hc
  | case4 c rest hc ih =>
    rw [pictures_of_other hc]
    exact List.forall_mem_cons.2 ⟨h c List.mem_cons_self, ih fun d hd => h d (List.mem_cons_of_mem _ hd)⟩

theorem dropBackslash_sublist (p : List Char) : (dropBackslash p).Sublist p := by
  induction p using dropBackslash.induct with
  | case1 => exact .slnil
  | case2 rest ih =>
    rw [dropBackslash]
    exact (ih.cons_cons '[').cons '\\'
  | case3 c rest hother ih =>
    rw [dropBackslash_cons hother]
    exact ih.cons_cons c

theorem backslash_mem_of_trailing (h : trailing cs = 1) : '\\' ∈ cs := by
  rcases List.eq_nil_or_concat cs with rfl | ⟨front, c, rfl⟩
  · cases h
  · rw [List.concat_eq_append, trailing_concat] at h
    split_ifs at h with hc
    simp [hc]

/-- what an escaped text shows has the characters of the text and those of pictures -/
theorem mem_of_mem_stretches {P : Char → Prop} (hgallery : ∀ name text, gallery name = some text → ∀ c ∈ text, P c)
    (h : ∀ c ∈ cs, P c) : ∀ c ∈ (stretches [] 0 (escape cs)).flatMap (interpreted gallery), P c := by
  intro c hc
  rw [stretches_escape] at hc
  rcases List.mem_append.1 hc with hc | hc
  · obtain ⟨p, hp, hc⟩ := List.mem_flatMap.1 hc
    refine mem_of_mem_pictures hgallery (fun d hd => h d ?_) c hc
    have hflat : (pieces [] cs).flatten = cs := flatten_pieces [] cs
    rw [← hflat]
    exact List.mem_flatten.2 ⟨p, hp, (dropBackslash_sublist p).subset hd⟩
  · split_ifs at hc with hend
    · obtain rfl := List.eq_of_mem_replicate hc
      exact h _ (backslash_mem_of_trailing hend)
    · cases hc

theorem mem_of_mem_shown {P : Char → Prop} (hgallery : ∀ name text, gallery name = some text → ∀ c ∈ text, P c)
    (h : ∀ c ∈ cs, P c) : ∀ c ∈ shown gallery (escape cs), P c := fun c hc =>
  mem_of_mem_stretches hgallery h c (List.mem_of_mem_filter hc)

/-- a text without controls shows without any -/
theorem shown_escape (hgallery : gallery.Lawful) (h : ∀ c ∈ cs, isAction c = false) :
    shown gallery (escape cs) =
      (pieces [] cs).flatMap (interpreted gallery) ++ List.replicate (if trailing cs = 1 then 1 else 0) '\\' := by
  rw [← stretches_escape, shown]
  refine List.filter_eq_self.2 fun c hc => ?_
  have hshown : isAction c = false :=
    mem_of_mem_stretches (fun name text hpicture d hd => (hgallery.plain name text hpicture d hd).1) h c hc
  rw [hshown]
  rfl

/-- **Texts that show as they stand** are the literal ones. -/
theorem shown_escape_iff (hgallery : gallery.Lawful) (h : ∀ c ∈ cs, isAction c = false) :
    shown gallery (escape cs) = cs ↔ Literal gallery cs := by
  have hflat : (pieces [] cs).flatten = cs := flatten_pieces [] cs
  have hshown := flatMap_interpreted_iff hgallery (pieces [] cs) (if trailing cs = 1 then 1 else 0)
  rw [hflat] at hshown
  rw [shown_escape hgallery h, hshown]
  constructor
  · rintro ⟨hend, hbrackets, hcodes⟩
    refine ⟨fun hone => ?_, hbrackets, hcodes⟩
    rw [if_pos hone] at hend
    cases hend
  · rintro ⟨hend, hbrackets, hcodes⟩
    exact ⟨if_neg hend, hbrackets, hcodes⟩

end Shown

/-! ## Locations -/

section Locations

variable {gallery : Gallery} {cs file line column : List Char}

/-- a text without brackets is one piece -/
theorem pieces_of_no_bracket (held : List Char) (h : '[' ∉ cs) : pieces held cs = [held.reverse ++ cs] := by
  induction cs generalizing held with
  | nil => rw [pieces, List.append_nil]
  | cons c rest ih =>
    have hc : c ≠ '[' := fun hc => h (hc ▸ List.mem_cons_self)
    rw [pieces_of_none (tag?_of_ne hc), ih _ fun hrest => h (List.mem_cons_of_mem _ hrest)]
    simp

/-- a code stands in its text -/
theorem infix_of_mem_codes {name : List Char} (h : name ∈ codes cs) : ':' :: (name ++ [':']) <:+: cs := by
  induction cs using codes.induct with
  | case1 =>
    rw [codes] at h
    cases h
  | case2 rest hnone ih =>
    rw [codes_of_none hnone] at h
    exact (ih h).trans (List.suffix_cons ':' rest).isInfix
  | case3 rest found after hname ih =>
    rw [codes_of_some hname] at h
    obtain ⟨rfl, -⟩ := append_of_codeName? hname
    rcases List.mem_cons.1 h with rfl | h
    · exact ⟨[], after, by simp⟩
    · exact (ih h).trans ⟨':' :: (found ++ [':']), [], by simp⟩
  | case4 c rest hc ih =>
    rw [codes_of_other hc] at h
    exact (ih h).trans (List.suffix_cons c rest).isInfix

theorem codes_of_no_colon (h : ':' ∉ cs) : codes cs = [] :=
  List.eq_nil_iff_forall_not_mem.2 fun _ hname => h ((infix_of_mem_codes hname).subset List.mem_cons_self)

theorem codeName?_of_no_blank (hcolon : ':' ∉ line) (hblank : ∀ c ∈ line, Text.isBlank c = false) (cs : List Char) :
    codeName? (line ++ ':' :: cs) = some (line, cs) := by
  induction line with
  | nil => rw [List.nil_append, codeName?, if_pos rfl]
  | cons c rest ih =>
    have hc : c ≠ ':' := fun hc => hcolon (hc ▸ List.mem_cons_self)
    have hplain : ¬Text.isBlank c = true := by
      rw [hblank c List.mem_cons_self]
      decide
    rw [List.cons_append, codeName?, if_neg hc, if_neg hplain, ih (fun hrest => hcolon (List.mem_cons_of_mem _ hrest))
      fun d hd => hblank d (List.mem_cons_of_mem _ hd)]
    rfl

theorem pictures_append_of_no_colon (h : ':' ∉ file) (cs : List Char) :
    pictures gallery (file ++ cs) = file ++ pictures gallery cs := by
  induction file with
  | nil => rfl
  | cons c rest ih =>
    have hc : c ≠ ':' := fun hc => h (hc ▸ List.mem_cons_self)
    rw [List.cons_append, pictures_of_other hc, ih fun hrest => h (List.mem_cons_of_mem _ hrest), List.cons_append]

theorem pictures_of_no_colon (h : ':' ∉ cs) : pictures gallery cs = cs :=
  pictures_eq_self fun name hname => by
    rw [codes_of_no_colon h] at hname
    cases hname

/-- **Locations.** The only code in a location is its line number, when there is no colon in its path. -/
theorem pictures_location (hfile : ':' ∉ file) (hline : ':' ∉ line) (hblank : ∀ c ∈ line, Text.isBlank c = false)
    (hcolumn : ':' ∉ column) : pictures gallery (file ++ ':' :: (line ++ ':' :: column)) =
      file ++ ((gallery line).getD (':' :: (line ++ [':'])) ++ column) := by
  rw [pictures_append_of_no_colon hfile, pictures_of_some (codeName?_of_no_blank hline hblank column),
    pictures_of_no_colon hcolumn]

end Locations

end SignalWiring.Report.Markup
