/-
Escaped texts, and what they show.

A text is escaped before it is shown. What comes out is the text, piece by piece: the texts between the tags, and the tags
as they stand (`pieces`). Escaping does not know of the rest of what markup means, though. In every piece a backslash
before a bracket vanishes and codes become pictures (`interpreted`), and a text that ends in a single backslash gets another
one.

- `tag?_escapeTags_of_some`, `tag?_escapeTags_of_none`: an escaped text has the tags of the text.
- `stretches_escapeTags`: what the stretches of a text with escaped tags show.
- `stretches_escape`: what an escaped text shows.
- `stretches_blank`, `stretches_plain`: an escaped text after other markup.
-/
import Mathlib.Tactic
import SignalWiring.Report.Markup

namespace SignalWiring.Report.Markup

/-! ## Pieces and codes -/

/-- the texts between the tags, and the tags; `held` is what has been read since the last tag, last character first -/
def pieces (held : List Char) (cs : List Char) : List (List Char) :=
  match cs with
  | [] => [held.reverse]
  | c :: rest =>
    match _h : tag? (c :: rest) with
    | none => pieces (c :: held) rest
    | some (tag, after) => [held.reverse, tag] ++ pieces [] after
termination_by cs.length
decreasing_by
  · simp
  · exact length_of_tag? _h

/-- the names of the codes of a text -/
def codes (cs : List Char) : List (List Char) :=
  match cs with
  | [] => []
  | c :: rest =>
    if c = ':' then
      match _h : codeName? rest with
      | none => codes rest
      | some (name, after) => name :: codes after
    else codes rest
termination_by cs.length
decreasing_by
  · simp
  · exact Nat.lt_succ_of_lt (length_of_codeName? _h)
  · simp

/-- one character more, after `n` backslashes -/
def countBackslash (n : ℕ) (c : Char) : ℕ := if c = '\\' then n + 1 else 0

/-- the number of backslashes at the end of a text -/
def trailing (cs : List Char) : ℕ := cs.foldl countBackslash 0

/-- what a piece shows -/
def interpreted (gallery : Gallery) (p : List Char) : List Char := pictures gallery (dropBackslash p)

section Reading

variable {c : Char} {cs rest tag after held name : List Char} {run n : ℕ}

theorem pieces_of_none (h : tag? (c :: rest) = none) : pieces held (c :: rest) = pieces (c :: held) rest := by
  rw [pieces]
  split
  · rfl
  · rename_i hsome
    rw [h] at hsome
    cases hsome

theorem pieces_of_some (h : tag? (c :: rest) = some (tag, after)) :
    pieces held (c :: rest) = [held.reverse, tag] ++ pieces [] after := by
  rw [pieces]
  split
  · rename_i hnone
    rw [h] at hnone
    cases hnone
  · rename_i hsome
    rw [h] at hsome
    cases hsome
    rfl

/-- the pieces make up the text -/
theorem flatten_pieces (held cs : List Char) : (pieces held cs).flatten = held.reverse ++ cs := by
  induction held, cs using pieces.induct with
  | case1 held => simp [pieces]
  | case2 held c rest htag ih => simp [pieces_of_none htag, ih]
  | case3 held c rest tag after htag ih =>
    rw [pieces_of_some htag, List.flatten_append, ih, ← append_of_tag? htag]
    simp

theorem stretches_backslash : stretches held run ('\\' :: rest) = stretches held (run + 1) rest := by
  rw [stretches, if_pos rfl]

theorem stretches_of_none (hc : c ≠ '\\') (h : tag? (c :: rest) = none) :
    stretches held run (c :: rest) = stretches (c :: (List.replicate run '\\' ++ held)) 0 rest := by
  rw [stretches, if_neg hc]
  split
  · rfl
  · rename_i hsome
    rw [h] at hsome
    cases hsome

theorem stretches_of_some (hc : c ≠ '\\') (h : tag? (c :: rest) = some (tag, after)) :
    stretches held run (c :: rest) =
      [held.reverse, List.replicate (run / 2) '\\'] ++ (if run % 2 = 1 then [tag] else []) ++ stretches [] 0 after := by
  rw [stretches, if_neg hc]
  split
  · rename_i hnone
    rw [h] at hnone
    cases hnone
  · rename_i hsome
    rw [h] at hsome
    cases hsome
    rfl

theorem stretches_replicate : stretches held run (List.replicate n '\\' ++ cs) = stretches held (run + n) cs := by
  induction n generalizing run with
  | zero => rfl
  | succ n ih =>
    rw [List.replicate_succ, List.cons_append, stretches_backslash, ih]
    congr 1
    omega

/-! ## Tags of an escaped text -/

theorem head_of_tag? (h : tag? (c :: rest) = some (tag, after)) : c = '[' := by
  unfold tag? at h
  split at h
  · rename_i heq
    exact (List.cons.inj heq).1
  · cases h

theorem tag?_of_ne (h : c ≠ '[') : tag? (c :: rest) = none := by
  cases htag : tag? (c :: rest) with
  | none => rfl
  | some found => exact absurd (head_of_tag? htag) h

theorem escapeTags_backslash : escapeTags run ('\\' :: rest) = '\\' :: escapeTags (run + 1) rest := by
  rw [escapeTags, if_pos rfl]

theorem escapeTags_of_none (hc : c ≠ '\\') (h : tag? (c :: rest) = none) :
    escapeTags run (c :: rest) = c :: escapeTags 0 rest := by
  rw [escapeTags, if_neg hc, h]
  rfl

theorem escapeTags_of_some (h : tag? (c :: rest) = some (tag, after)) :
    escapeTags run (c :: rest) = List.replicate (run + 1) '\\' ++ c :: escapeTags 0 rest := by
  have hc : c ≠ '\\' := by
    rw [head_of_tag? h]
    decide
  rw [escapeTags, if_neg hc, h]
  rfl

theorem tagEnd?_replicate : tagEnd? (List.replicate n '\\' ++ cs) =
    (tagEnd? cs).map fun p => (List.replicate n '\\' ++ p.1, p.2) := by
  induction n with
  | zero => simp
  | succ n ih =>
    have hopen : '\\' ≠ ']' := by decide
    have hclose : '\\' ≠ '[' := by decide
    rw [List.replicate_succ, List.cons_append, tagEnd?, if_neg hopen, if_neg hclose, ih, Option.map_map]
    rfl

/-- Escaping, and backslashes at the end, leave the end of a tag where it is. -/
theorem tagEnd?_escapeTags (run n : ℕ) (cs : List Char) :
    tagEnd? (escapeTags run cs ++ List.replicate n '\\') =
      (tagEnd? cs).map fun p => (p.1, escapeTags 0 p.2 ++ List.replicate n '\\') := by
  induction cs generalizing run with
  | nil =>
    have hend : tagEnd? (List.replicate n '\\' ++ []) = _ := tagEnd?_replicate
    rw [List.append_nil] at hend
    rw [escapeTags, List.nil_append, hend]
    rfl
  | cons c rest ih =>
    by_cases hc : c = '\\'
    · subst hc
      have hopen : '\\' ≠ ']' := by decide
      have hclose : '\\' ≠ '[' := by decide
      rw [escapeTags_backslash, List.cons_append, tagEnd?, tagEnd?, if_neg hopen, if_neg hclose, if_neg hopen,
        if_neg hclose, ih, Option.map_map, Option.map_map]
      rfl
    · cases htag : tag? (c :: rest) with
      | some p =>
        obtain ⟨tag, after⟩ := p
        have hopen : '[' ≠ ']' := by decide
        obtain rfl := head_of_tag? htag
        rw [escapeTags_of_some htag, List.append_assoc, tagEnd?_replicate, List.cons_append, tagEnd?, tagEnd?,
          if_neg hopen, if_neg hopen, if_pos rfl, if_pos rfl]
        rfl
      | none =>
        rw [escapeTags_of_none hc htag, List.cons_append, tagEnd?, tagEnd?]
        split_ifs with hclose hopen
        · rfl
        · rfl
        · rw [ih, Option.map_map, Option.map_map]
          rfl

theorem not_opensTag_backslash : opensTag '\\' = false := by decide

/-- A tag stays a tag, -/
theorem tag?_escapeTags_of_some (n : ℕ) (h : tag? (c :: rest) = some (tag, after)) :
    tag? (c :: (escapeTags 0 rest ++ List.replicate n '\\')) =
      some (tag, escapeTags 0 after ++ List.replicate n '\\') := by
  unfold tag? at h
  split at h
  · rename_i d more heq
    obtain ⟨rfl, rfl⟩ := List.cons.inj heq
    split at h
    · rename_i hopens
      obtain ⟨⟨end', after'⟩, hend, hpair⟩ := Option.map_eq_some_iff.1 h
      cases hpair
      have hd : d ≠ '\\' := by
        rintro rfl
        rw [not_opensTag_backslash] at hopens
        cases hopens
      have hbracket : d ≠ '[' := by
        rintro rfl
        exact absurd hopens (by decide)
      rw [escapeTags_of_none hd (tag?_of_ne hbracket), List.cons_append, tag?, if_pos hopens, tagEnd?_escapeTags, hend]
      rfl
    · cases h
  · cases h

/-- and where none begins none does in the escaped text. -/
theorem tag?_escapeTags_of_none (n : ℕ) (h : tag? (c :: rest) = none) :
    tag? (c :: (escapeTags 0 rest ++ List.replicate n '\\')) = none := by
  by_cases hc : c = '['
  · subst hc
    -- what follows the bracket is itself, or a backslash, which opens no tag
    have hbackslash : ∀ x, tag? ('[' :: '\\' :: x) = none := fun x => by rw [tag?, not_opensTag_backslash]; rfl
    cases rest with
    | nil =>
      cases n with
      | zero => rfl
      | succ n => exact hbackslash _
    | cons d more =>
      by_cases hd : d = '\\'
      · subst hd
        rw [escapeTags_backslash]
        exact hbackslash _
      · cases htag : tag? (d :: more) with
        | some p =>
          rw [escapeTags_of_some htag]
          exact hbackslash _
        | none =>
          rw [escapeTags_of_none hd htag, List.cons_append, tag?]
          rw [tag?] at h
          split_ifs at h ⊢ with hopens
          · rw [tagEnd?_escapeTags, Option.map_eq_none_iff.1 h]
            rfl
          · rfl
  · exact tag?_of_ne hc

end Reading

/-! ## What an escaped text shows -/

section Shown

variable {gallery : Gallery} {c : Char} {cs rest name after p : List Char} {ps : List (List Char)} {n : ℕ}

theorem dropBackslash_cons (h : ∀ more, c = '\\' → rest = '[' :: more → False) :
    dropBackslash (c :: rest) = c :: dropBackslash rest := by
  rw [dropBackslash]
  exact h

theorem dropBackslash_replicate (n : ℕ) : dropBackslash (List.replicate n '\\') = List.replicate n '\\' := by
  induction n with
  | zero => rfl
  | succ n ih =>
    rw [List.replicate_succ, dropBackslash_cons, ih]
    intro more _ hrest
    cases n with
    | zero => cases hrest
    | succ n => cases hrest

theorem dropBackslash_append (cs : List Char) (n : ℕ) :
    dropBackslash (cs ++ List.replicate n '\\') = dropBackslash cs ++ List.replicate n '\\' := by
  induction cs using dropBackslash.induct with
  | case1 => exact dropBackslash_replicate n
  | case2 rest ih =>
    simp only [List.cons_append, dropBackslash, ih]
  | case3 c rest hother ih =>
    rw [List.cons_append, dropBackslash_cons, dropBackslash_cons hother, ih, List.cons_append]
    intro more hc hrest
    cases rest with
    | nil =>
      cases n with
      | zero => cases hrest
      | succ n => cases hrest
    | cons d more' =>
      obtain ⟨rfl, -⟩ := List.cons.inj hrest
      exact hother more' hc rfl

theorem append_of_codeName? (h : codeName? cs = some (name, after)) : cs = name ++ ':' :: after ∧ ':' ∉ name := by
  induction cs generalizing name with
  | nil => cases h
  | cons c rest ih =>
    rw [codeName?] at h
    split_ifs at h with hcolon hblank
    · cases h
      exact ⟨by rw [hcolon]; rfl, List.not_mem_nil⟩
    · obtain ⟨⟨name', after'⟩, hrest, hpair⟩ := Option.map_eq_some_iff.1 h
      cases hpair
      obtain ⟨rfl, hfree⟩ := ih hrest
      exact ⟨rfl, List.not_mem_cons_of_ne_of_not_mem (Ne.symm hcolon) hfree⟩

theorem codeName?_append (cs : List Char) (n : ℕ) : codeName? (cs ++ List.replicate n '\\') =
    (codeName? cs).map fun p => (p.1, p.2 ++ List.replicate n '\\') := by
  have hcolon : '\\' ≠ ':' := by decide
  have hblank : ¬Text.isBlank '\\' = true := by decide
  induction cs with
  | nil =>
    rw [List.nil_append]
    induction n with
    | zero => rfl
    | succ n ih =>
      have hstep : codeName? ('\\' :: List.replicate n '\\') =
          (codeName? (List.replicate n '\\')).map fun p => ('\\' :: p.1, p.2) := by
        rw [codeName?, if_neg hcolon, if_neg hblank]
      rw [List.replicate_succ, hstep, ih]
      rfl
  | cons c rest ih =>
    rw [List.cons_append, codeName?, codeName?]
    split_ifs
    · rfl
    · rfl
    · rw [ih, Option.map_map, Option.map_map]
      rfl

theorem pictures_of_other (hc : c ≠ ':') : pictures gallery (c :: rest) = c :: pictures gallery rest := by
  rw [pictures, if_neg hc]

theorem pictures_of_none (h : codeName? rest = none) :
    pictures gallery (':' :: rest) = ':' :: pictures gallery rest := by
  rw [pictures, if_pos rfl]
  split
  · rfl
  · rename_i hsome
    rw [h] at hsome
    cases hsome

theorem pictures_of_some (h : codeName? rest = some (name, after)) : pictures gallery (':' :: rest) =
    (gallery name).getD (':' :: (name ++ [':'])) ++ pictures gallery after := by
  rw [pictures, if_pos rfl]
  split
  · rename_i hnone
    rw [h] at hnone
    cases hnone
  · rename_i hsome
    rw [h] at hsome
    cases hsome
    rfl

theorem codes_of_other (hc : c ≠ ':') : codes (c :: rest) = codes rest := by
  rw [codes, if_neg hc]

theorem codes_of_none (h : codeName? rest = none) : codes (':' :: rest) = codes rest := by
  rw [codes, if_pos rfl]
  split
  · rfl
  · rename_i hsome
    rw [h] at hsome
    cases hsome

theorem codes_of_some (h : codeName? rest = some (name, after)) : codes (':' :: rest) = name :: codes after := by
  rw [codes, if_pos rfl]
  split
  · rename_i hnone
    rw [h] at hnone
    cases hnone
  · rename_i hsome
    rw [h] at hsome
    cases hsome
    rfl

theorem pictures_append (gallery : Gallery) (cs : List Char) (n : ℕ) :
    pictures gallery (cs ++ List.replicate n '\\') = pictures gallery cs ++ List.replicate n '\\' := by
  induction cs using codes.induct with
  | case1 =>
    rw [pictures, List.nil_append]
    induction n with
    | zero => rw [List.replicate_zero, pictures]
    | succ n ih =>
      rw [List.replicate_succ, pictures_of_other (by decide), ih]
  | case2 rest hname ih =>
    have hmore := codeName?_append rest n
    rw [hname, Option.map_none] at hmore
    rw [List.cons_append, pictures_of_none hmore, pictures_of_none hname, ih, List.cons_append]
  | case3 rest name after hname ih =>
    have hmore := codeName?_append rest n
    rw [hname, Option.map_some] at hmore
    rw [List.cons_append, pictures_of_some hmore, pictures_of_some hname, ih, List.append_assoc]
  | case4 c rest hc ih => rw [List.cons_append, pictures_of_other hc, pictures_of_other hc, ih, List.cons_append]

@[simp]
theorem interpreted_nil (gallery : Gallery) : interpreted gallery [] = [] := by
  rw [interpreted, dropBackslash, pictures]

theorem interpreted_append (gallery : Gallery) (p : List Char) (n : ℕ) :
    interpreted gallery (p ++ List.replicate n '\\') = interpreted gallery p ++ List.replicate n '\\' := by
  rw [interpreted, dropBackslash_append, pictures_append, interpreted]

theorem interpreted_replicate (gallery : Gallery) (n : ℕ) :
    interpreted gallery (List.replicate n '\\') = List.replicate n '\\' := by
  have h := interpreted_append gallery [] n
  rwa [List.nil_append, interpreted_nil, List.nil_append] at h

/-- **Escaped tags.** The stretches of a text whose tags are escaped show what its pieces show. -/
theorem stretches_escapeTags (gallery : Gallery) (held : List Char) (run n : ℕ) (cs : List Char) :
    (stretches held run (escapeTags run cs ++ List.replicate n '\\')).flatMap (interpreted gallery) =
      (pieces (List.replicate run '\\' ++ held) cs).flatMap (interpreted gallery) ++ List.replicate n '\\' := by
  induction held, run, cs using stretches.induct with
  | case1 held run =>
    have hstretches : stretches held run (List.replicate n '\\') = [held.reverse ++ List.replicate (run + n) '\\'] := by
      rw [← List.append_nil (List.replicate n '\\'), stretches_replicate, stretches]
    rw [escapeTags, List.nil_append, hstretches, pieces, List.flatMap_singleton, List.flatMap_singleton,
      List.reverse_append, List.reverse_replicate, List.replicate_add, ← List.append_assoc, interpreted_append]
  | case2 held run rest ih =>
    have hnone : tag? ('\\' :: rest) = none := rfl
    rw [escapeTags_backslash, List.cons_append, stretches_backslash, ih, pieces_of_none hnone]
    rfl
  | case3 held run c rest hc htag ih =>
    rw [escapeTags_of_none hc htag, List.cons_append, stretches_of_none hc (tag?_escapeTags_of_none n htag),
      pieces_of_none htag]
    exact ih
  | case4 held run c rest hc tag after htag ih =>
    -- the backslashes that stand before a tag are doubled, and one is added: it shows the tag, and the others halve
    have hodd : (run + (run + 1)) % 2 = 1 := by omega
    have hhalf : (run + (run + 1)) / 2 = run := by omega
    rw [escapeTags_of_some htag, List.append_assoc, List.cons_append, stretches_replicate,
      stretches_of_some hc (tag?_escapeTags_of_some n htag), pieces_of_some htag, if_pos hodd, hhalf]
    simp only [List.cons_append, List.nil_append, List.flatMap_cons, List.replicate_zero] at ih ⊢
    rw [ih, List.reverse_append, List.reverse_replicate, interpreted_append, interpreted_replicate]
    simp only [List.append_assoc]

/-- a blank before a text shows before what the text shows -/
theorem interpreted_pieces_blank (gallery : Gallery) (held cs : List Char) :
    (pieces (held ++ [' ']) cs).flatMap (interpreted gallery) =
      ' ' :: (pieces held cs).flatMap (interpreted gallery) := by
  have hblank : ∀ p, interpreted gallery (' ' :: p) = ' ' :: interpreted gallery p := by
    intro p
    have hdrop : dropBackslash (' ' :: p) = ' ' :: dropBackslash p :=
      dropBackslash_cons fun _ hc _ => absurd hc (by decide)
    rw [interpreted, hdrop, pictures_of_other (by decide), interpreted]
  induction held, cs using pieces.induct with
  | case1 held => rw [pieces, pieces, List.flatMap_singleton, List.flatMap_singleton, List.reverse_concat, hblank]
  | case2 held c rest htag ih =>
    rw [pieces_of_none htag, pieces_of_none htag]
    exact ih
  | case3 held c rest tag after htag ih =>
    rw [pieces_of_some htag, pieces_of_some htag, List.flatMap_append, List.flatMap_append, List.flatMap_cons,
      List.flatMap_cons, List.reverse_concat, hblank]
    rfl

/-! ### The end of a text -/

theorem foldl_countBackslash_append (k : ℕ) {c : Char} (x y : List Char) (hc : c ≠ '\\') :
    (x ++ c :: y).foldl countBackslash k = y.foldl countBackslash 0 := by
  rw [List.foldl_append, List.foldl_cons, countBackslash, if_neg hc]

/-- escaping tags leaves the end of a text as it is -/
theorem trailing_escapeTags (run k : ℕ) (cs : List Char) :
    (escapeTags run cs).foldl countBackslash k = cs.foldl countBackslash k := by
  induction cs generalizing run k with
  | nil => rfl
  | cons c rest ih =>
    by_cases hc : c = '\\'
    · subst hc
      rw [escapeTags_backslash, List.foldl_cons, List.foldl_cons, ih]
    · have hreset : (c :: rest).foldl countBackslash k = rest.foldl countBackslash 0 :=
        foldl_countBackslash_append k [] rest hc
      rw [hreset]
      cases htag : tag? (c :: rest) with
      | none =>
        rw [escapeTags_of_none hc htag, ← ih 0 0]
        exact foldl_countBackslash_append k [] _ hc
      | some found => rw [escapeTags_of_some htag, foldl_countBackslash_append k _ _ hc, ih]

theorem trailing_concat (cs : List Char) (c : Char) :
    trailing (cs ++ [c]) = if c = '\\' then trailing cs + 1 else 0 := by
  rw [trailing, List.foldl_append]
  rfl

theorem closeBackslash_eq (cs : List Char) :
    closeBackslash cs = cs ++ List.replicate (if trailing cs = 1 then 1 else 0) '\\' := by
  rcases List.eq_nil_or_concat cs with rfl | ⟨front, c, rfl⟩
  · rfl
  · rw [List.concat_eq_append, trailing_concat, closeBackslash, List.reverse_append]
    by_cases hc : c = '\\'
    · subst hc
      rcases List.eq_nil_or_concat front with rfl | ⟨more, d, rfl⟩
      · rfl
      · rw [List.concat_eq_append, trailing_concat, List.reverse_append]
        by_cases hd : d = '\\'
        · subst hd
          simp
        · simp [hd]
    · simp only [List.reverse_singleton, List.singleton_append, if_neg hc]
      split
      · rename_i heq
        exact absurd (List.cons.inj heq).1 hc
      · rename_i heq
        exact absurd (List.cons.inj heq).1 hc
      · simp

/-- **Escaped texts.** An escaped text shows what the pieces of the text show, and one backslash more when the text ends in
a single one. -/
theorem stretches_escape (gallery : Gallery) (cs : List Char) :
    (stretches [] 0 (escape cs)).flatMap (interpreted gallery) =
      (pieces [] cs).flatMap (interpreted gallery) ++ List.replicate (if trailing cs = 1 then 1 else 0) '\\' := by
  have hend : trailing (escapeTags 0 cs) = trailing cs := trailing_escapeTags 0 0 cs
  rw [escape, closeBackslash_eq, hend]
  exact stretches_escapeTags gallery [] 0 _ cs

/-! ### A text after others -/

/-- a blank before an escaped text shows before what the text shows -/
theorem stretches_blank (gallery : Gallery) (cs : List Char) :
    (stretches [' '] 0 (escape cs)).flatMap (interpreted gallery) =
      ' ' :: (stretches [] 0 (escape cs)).flatMap (interpreted gallery) := by
  have hblank := interpreted_pieces_blank gallery [] cs
  rw [escape, closeBackslash_eq, stretches_escapeTags, stretches_escapeTags]
  simp only [List.replicate_zero, List.nil_append] at hblank ⊢
  rw [hblank, List.cons_append]

/-- what is no bracket and no backslash is held -/
theorem stretches_plain (held : List Char) {front : List Char} (hbackslash : '\\' ∉ front) (hbracket : '[' ∉ front)
    (cs : List Char) : stretches held 0 (front ++ cs) = stretches (front.reverse ++ held) 0 cs := by
  induction front generalizing held with
  | nil => rfl
  | cons c rest ih =>
    obtain ⟨hc, hbackslash⟩ := List.ne_and_not_mem_of_not_mem_cons hbackslash
    obtain ⟨hopen, hbracket⟩ := List.ne_and_not_mem_of_not_mem_cons hbracket
    rw [List.cons_append, stretches_of_none (Ne.symm hc) (tag?_of_ne (Ne.symm hopen)), ih _ hbackslash hbracket]
    simp

end Shown

end SignalWiring.Report.Markup
