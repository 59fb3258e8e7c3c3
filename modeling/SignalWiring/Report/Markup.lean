/-
Console markup.

A tag is a `[`, one of the characters a to z, `#`, `/` and `@`, and what follows up to the first `]` with no `[` on the
way. `shown` is what a marked-up text shows: tags show nothing. Backslashes before a tag halve, and if their number is
odd the tag itself is shown. A backslash before any other `[` vanishes. A code such as `:100:` shows as the picture that a
gallery has under its name, and the controls that a terminal would act upon are left out.

`escape` writes a text so that its tags show as they stand: their backslashes are doubled and one is added. One more is
added to a text that ends in a single backslash.
-/
import SignalWiring.Text.Blank

namespace SignalWiring.Report.Markup

def opensTag (c : Char) : Bool := ('a' ≤ c && c ≤ 'z') || c == '#' || c == '/' || c == '@'

/-- the text up to the first `]`, with it, and the rest -/
def tagEnd? : List Char → Option (List Char × List Char)
  | [] => none
  | c :: rest =>
    if c = ']' then some ([c], rest)
    else if c = '[' then none
    else (tagEnd? rest).map fun p => (c :: p.1, p.2)

/-- the tag at the start of a text, and the rest -/
def tag? : List Char → Option (List Char × List Char)
  | '[' :: c :: rest => if opensTag c then (tagEnd? rest).map fun p => ('[' :: c :: p.1, p.2) else none
  | _ => none

theorem append_of_tagEnd? {cs tag rest : List Char} (h : tagEnd? cs = some (tag, rest)) : tag ++ rest = cs := by
  induction cs generalizing tag with
  | nil => simp [tagEnd?] at h
  | cons c cs ih =>
    unfold tagEnd? at h
    split at h
    · simp only [Option.some.injEq, Prod.mk.injEq] at h
      simp [← h.1, ← h.2]
    · split at h
      · simp at h
      · simp only [Option.map_eq_some_iff, Prod.mk.injEq] at h
        obtain ⟨⟨t, r⟩, ht, rfl, rfl⟩ := h
        simp [ih ht]

theorem append_of_tag? {cs tag rest : List Char} (h : tag? cs = some (tag, rest)) : tag ++ rest = cs := by
  unfold tag? at h
  split at h
  · split at h
    · simp only [Option.map_eq_some_iff, Prod.mk.injEq] at h
      obtain ⟨⟨t, r⟩, ht, rfl, rfl⟩ := h
      simp [append_of_tagEnd? ht]
    · simp at h
  · simp at h

theorem length_of_tag? {cs tag rest : List Char} (h : tag? cs = some (tag, rest)) : rest.length < cs.length := by
  have happ := append_of_tag? h
  unfold tag? at h
  split at h
  · split at h
    · simp only [Option.map_eq_some_iff, Prod.mk.injEq] at h
      obtain ⟨⟨t, r⟩, -, rfl, rfl⟩ := h
      simp [← happ]
      omega
    · simp at h
  · simp at h

/-! ## Writing -/

/-- `escape` without the ending, after `run` backslashes -/
def escapeTags : Nat → List Char → List Char
  | _, [] => []
  | run, c :: rest =>
    if c = '\\' then c :: escapeTags (run + 1) rest
    else if (tag? (c :: rest)).isSome then List.replicate (run + 1) '\\' ++ c :: escapeTags 0 rest
    else c :: escapeTags 0 rest

/-- a text that ends in one backslash, with no other before it, gets a second one -/
def closeBackslash (cs : List Char) : List Char :=
  match cs.reverse with
  | ['\\'] => cs ++ ['\\']
  | '\\' :: c :: _ => if c = '\\' then cs else cs ++ ['\\']
  | _ => cs

/-- the markup that shows the tags in a text as they stand -/
def escape (cs : List Char) : List Char := closeBackslash (escapeTags 0 cs)

/-! ## Reading -/

/-- the stretches that show something: texts between tags, halved backslashes, and tags that are shown; `held` is what
has been read since the last tag, last character first and without the `run` backslashes at its end -/
def stretches (held : List Char) (run : Nat) (cs : List Char) : List (List Char) :=
  match cs with
  | [] => [held.reverse ++ List.replicate run '\\']
  | c :: rest =>
    if c = '\\' then stretches held (run + 1) rest
    else
      match _h : tag? (c :: rest) with
      | none => stretches (c :: (List.replicate run '\\' ++ held)) 0 rest
      | some (tag, after) =>
        [held.reverse, List.replicate (run / 2) '\\'] ++ (if run % 2 = 1 then [tag] else []) ++ stretches [] 0 after
termination_by cs.length
decreasing_by
  · simp
  · simp
  · exact length_of_tag? _h

/-- a backslash before a bracket vanishes -/
def dropBackslash : List Char → List Char
  | [] => []
  | '\\' :: '[' :: rest => '[' :: dropBackslash rest
  | c :: rest => c :: dropBackslash rest

/-- pictures by name; the name is what stands between the colons of a code -/
abbrev Gallery := List Char → Option (List Char)

def picture? : List Char → Option Char
  | ['1', '0', '0'] => some '💯'
  | ['1', '2', '3', '4'] => some '🔢'
  | _ => none

/-- the gallery of these pictures; a name may have a variant at its end, which is marked after the picture -/
def numbers : Gallery := fun name =>
  let emoji := "-emoji".toList
  let text := "-text".toList
  if emoji.isSuffixOf name then (picture? (name.take (name.length - emoji.length))).map ([·, '\uFE0F'])
  else if text.isSuffixOf name then (picture? (name.take (name.length - text.length))).map ([·, '\uFE0E'])
  else (picture? name).map ([·])

/-- the text up to the first `:`, if no blank comes before it, and what follows the `:` -/
def codeName? : List Char → Option (List Char × List Char)
  | [] => none
  | c :: rest =>
    if c = ':' then some ([], rest)
    else if Text.isBlank c then none
    else (codeName? rest).map fun p => (c :: p.1, p.2)

theorem length_of_codeName? {cs name rest : List Char} (h : codeName? cs = some (name, rest)) :
    rest.length < cs.length := by
  induction cs generalizing name with
  | nil => simp [codeName?] at h
  | cons c cs ih =>
    unfold codeName? at h
    split at h
    · simp only [Option.some.injEq, Prod.mk.injEq] at h
      simp [← h.2]
    · split at h
      · simp at h
      · simp only [Option.map_eq_some_iff, Prod.mk.injEq] at h
        obtain ⟨⟨t, r⟩, ht, -, rfl⟩ := h
        exact Nat.lt_succ_of_lt (ih ht)

/-- codes become pictures; the second `:` of a code that names none begins no other -/
def pictures (gallery : Gallery) (cs : List Char) : List Char :=
  match cs with
  | [] => []
  | c :: rest =>
    if c = ':' then
      match _h : codeName? rest with
      | none => c :: pictures gallery rest
      | some (name, after) => (gallery name).getD (':' :: (name ++ [':'])) ++ pictures gallery after
    else c :: pictures gallery rest
termination_by cs.length
decreasing_by
  · simp
  · exact Nat.lt_succ_of_lt (length_of_codeName? _h)
  · simp

/-- a control that a terminal acts upon: bell, backspace, vertical tab, form feed, carriage return -/
def isAction (c : Char) : Bool := [7, 8, 11, 12, 13].contains c.toNat

/-- what a marked-up text shows -/
def shown (gallery : Gallery) (cs : List Char) : List Char :=
  ((stretches [] 0 cs).flatMap fun s => pictures gallery (dropBackslash s)).filter fun c => !isAction c

end SignalWiring.Report.Markup
