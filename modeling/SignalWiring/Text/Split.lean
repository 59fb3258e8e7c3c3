/-
Splitting and joining on one character.

`fields sep cs` are the stretches between the separators, so there is always one more than there are separators.
-/

namespace SignalWiring.Text

/-- the stretches of `cs` between occurrences of `sep` -/
def fields (sep : Char) : List Char → List (List Char)
  | [] => [[]]
  | c :: rest =>
    if c = sep then [] :: fields sep rest
    else
      match fields sep rest with
      | [] => [[c]]
      | f :: fs => (c :: f) :: fs

/-- the stretches one after the other with `sep` between them -/
def joinWith (sep : List Char) : List (List Char) → List Char
  | [] => []
  | [f] => f
  | f :: g :: fs => f ++ sep ++ joinWith sep (g :: fs)

/-- the texts one after the other with `sep` between them -/
def join (sep : String) (parts : List String) : String := String.intercalate sep parts

/-- No stretch holds the separator. -/
theorem not_mem_of_mem_fields {sep : Char} {cs f : List Char} (h : f ∈ fields sep cs) : sep ∉ f := by
  induction cs generalizing f with
  | nil =>
    simp only [fields, List.mem_singleton] at h
    simp [h]
  | cons c rest ih =>
    unfold fields at h
    split at h
    · rcases List.mem_cons.1 h with rfl | h
      · simp
      · exact ih h
    · rename_i hc
      split at h
      · simp only [List.mem_singleton] at h
        simp [h, Ne.symm hc]
      · rename_i g gs hg
        rcases List.mem_cons.1 h with rfl | h
        · have := ih (hg ▸ List.mem_cons_self : g ∈ fields sep rest)
          simp [Ne.symm hc, this]
        · exact ih (hg ▸ List.mem_cons_of_mem _ h)

/-- `\r\n` and `\r` become `\n` -/
def unixLines : List Char → List Char
  | [] => []
  | '\r' :: '\n' :: rest => '\n' :: unixLines rest
  | c :: rest => (if c = '\r' then '\n' else c) :: unixLines rest

/-- `cs` without `suffix` at its end, if it is there -/
def dropSuffix? (suffix cs : List Char) : Option (List Char) :=
  if suffix.isSuffixOf cs then some (cs.take (cs.length - suffix.length)) else none

end SignalWiring.Text
