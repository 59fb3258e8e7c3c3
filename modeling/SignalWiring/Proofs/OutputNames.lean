/-
Output names.

A name has an extension when its last dot has something before it and something after it (`Extended`). The marker of an
output name goes before the extension, or after the name when there is none. A name with an extension and a name without
one never meet: whatever the marker is, the name without one would have an extension as well (`Extended.of_meets`).

- `splitName_of_extended`, `splitName_of_plain`: where a name is split.
- `hintName_injective`: different names have different output names.
- `toList_hint_perm`: an output name has the characters of the name and of the marker, and no others.
- `isBareName_hint_iff`: an output name is bare exactly when there is no slash in the marker.
-/
import SignalWiring.Proofs.AttributeNames
import SignalWiring.Proofs.Sources

namespace SignalWiring

namespace Path

/-! ## Extensions -/

/-- a name with something before its last dot, and something after it -/
structure Extended (name : String) (stem ext : List Char) : Prop where
  eq : name.toList = stem ++ '.' :: ext
  stem_ne : stem ≠ []
  ext_ne : ext ≠ []
  dot_not_mem : '.' ∉ ext

section Splitting

variable {name : String} {stem ext : List Char}

/-- a name with an extension is split before it -/
theorem splitName_of_extended (h : Extended name stem ext) :
    splitName name = (String.ofList stem, String.ofList ('.' :: ext)) := by
  have hdot : '.' ∉ ext.reverse := fun hmem => h.dot_not_mem (List.mem_reverse.1 hmem)
  have hreverse : name.toList.reverse = ext.reverse ++ '.' :: stem.reverse := by simp [h.eq]
  have htake : name.toList.reverse.takeWhile (· != '.') = ext.reverse := by
    rw [hreverse, Attribute.takeWhile_append_stop hdot]
  have hdrop : name.toList.reverse.dropWhile (· != '.') = '.' :: stem.reverse := by
    have hcut := List.takeWhile_append_dropWhile (p := (· != '.')) (l := name.toList.reverse)
    rw [htake, hreverse] at hcut
    rw [hreverse]
    exact List.append_cancel_left hcut
  have hne : ¬(ext.reverse.isEmpty || stem.reverse.isEmpty) = true := by simp [h.stem_ne, h.ext_ne]
  simp only [splitName, htake, hdrop, if_neg hne, List.reverse_reverse]

/-- any other name is not split -/
theorem splitName_of_plain (h : ∀ stem ext, ¬Extended name stem ext) : splitName name = (name, "") := by
  have hcut := List.takeWhile_append_dropWhile (p := (· != '.')) (l := name.toList.reverse)
  rw [splitName]
  split
  · rename_i dot front hfront
    split
    · rfl
    · rename_i hne
      exfalso
      have hdot : dot = '.' := by
        have hhead := List.head_dropWhile_not (· != '.') (l := name.toList.reverse) (by simp [hfront])
        simpa [hfront] using hhead
      simp only [Bool.or_eq_true, List.isEmpty_iff, not_or] at hne
      refine h front.reverse (name.toList.reverse.takeWhile (· != '.')).reverse ⟨?_, ?_, ?_, ?_⟩
      · rw [hfront, hdot] at hcut
        have hback := congrArg List.reverse hcut
        simpa using hback.symm
      · simpa using hne.2
      · simpa using hne.1
      · intro hmem
        have hkeep := List.mem_takeWhile_imp (List.mem_reverse.1 hmem)
        simp at hkeep
  · rfl

end Splitting

/-! ## Two names that meet -/

/-- What stands before a marker, where an extension stands behind it, is an extension as well. -/
theorem exists_ext_of_meets {marker ext x : List Char} (hmarker : marker.head? = some '.') (hext : ext ≠ [])
    (hdot : '.' ∉ ext) (h : marker ++ '.' :: ext = x ++ marker) : ∃ y, x = '.' :: y ∧ y ≠ [] ∧ '.' ∉ y := by
  have hlength : x.length = ext.length + 1 := by
    have := congrArg List.length h
    simp only [List.length_append, List.length_cons] at this
    omega
  obtain ⟨c, y, rfl⟩ := List.exists_cons_of_length_pos (l := x) (by omega)
  obtain ⟨m, rfl⟩ : ∃ m, marker = '.' :: m := List.head?_eq_some_iff.1 hmarker
  obtain rfl : c = '.' := by
    simp only [List.cons_append, List.cons.injEq] at h
    exact h.1.symm
  -- both sides have the dots of the marker and one dot more
  have hcount : y.count '.' = 0 := by
    have hdots := congrArg (List.count '.') h
    have hnone : ext.count '.' = 0 := List.count_eq_zero_of_not_mem hdot
    simp only [List.cons_append, List.count_cons_self, List.count_append, hnone] at hdots
    omega
  refine ⟨y, rfl, ?_, List.count_eq_zero.1 hcount⟩
  rintro rfl
  simp only [List.length_cons, List.length_nil] at hlength
  exact hext (List.length_eq_zero_iff.1 (by omega))

/-- **Names with and without an extension.** If a name with an extension and another name have the same output name, the
other has an extension as well. -/
theorem Extended.of_meets {a b : String} {stem ext marker : List Char} (h : Extended a stem ext)
    (hmarker : marker.head? = some '.') (hmeets : stem ++ marker ++ '.' :: ext = b.toList ++ marker) :
    ∃ ext', Extended b stem ext' := by
  rw [List.append_assoc] at hmeets
  rcases List.append_eq_append_iff.1 hmeets with ⟨x, hb, hx⟩ | ⟨x, hstem, hx⟩
  · obtain ⟨y, rfl, hy, hdot⟩ := exists_ext_of_meets hmarker h.ext_ne h.dot_not_mem hx
    exact ⟨y, hb, h.stem_ne, hy, hdot⟩
  · -- a marker is not longer than itself
    have hlength := congrArg List.length hx
    simp only [List.length_append, List.length_cons] at hlength
    omega

end Path

section Names

variable {artifact a b marker hint : String} {stem ext : List Char}

/-! ## Output names -/

/-- the marker goes before an extension -/
theorem hintName_of_extended (hpart : Path.IsPart artifact) (h : Path.Extended artifact stem ext) :
    hintName artifact marker = .ok (String.ofList (stem ++ marker.toList ++ '.' :: ext)) := by
  have hname : (Path.ofString artifact).name = artifact := Path.name_ofString hpart
  have hsuffix : (String.ofList ('.' :: ext)) ≠ "" := by
    rw [ne_eq, ← String.toList_inj]
    simp
  rw [hintName, if_neg hpart.1]
  simp only [Path.suffix, Path.stem, hname, Path.splitName_of_extended h, if_neg hsuffix]
  congr 1
  apply String.toList_injective
  simp

/-- and else behind the name -/
theorem hintName_of_plain (hpart : Path.IsPart artifact) (h : ∀ stem ext, ¬Path.Extended artifact stem ext) :
    hintName artifact marker = .ok (artifact ++ marker) := by
  have hname : (Path.ofString artifact).name = artifact := Path.name_ofString hpart
  rw [hintName, if_neg hpart.1]
  simp only [Path.suffix, hname, Path.splitName_of_plain h, if_true]

/-- the two ways in which an output name is made -/
theorem hintName_cases (hpart : Path.IsPart artifact) (h : hintName artifact marker = .ok hint) :
    (∃ stem ext, Path.Extended artifact stem ext ∧ hint.toList = stem ++ marker.toList ++ '.' :: ext) ∨
      (∀ stem ext, ¬Path.Extended artifact stem ext) ∧ hint.toList = artifact.toList ++ marker.toList := by
  by_cases hext : ∃ stem ext, Path.Extended artifact stem ext
  · obtain ⟨stem, ext, hext⟩ := hext
    rw [hintName_of_extended hpart hext] at h
    refine Or.inl ⟨stem, ext, hext, ?_⟩
    rw [← Except.ok.inj h, String.toList_ofList]
  · simp only [not_exists] at hext
    rw [hintName_of_plain hpart hext] at h
    refine Or.inr ⟨hext, ?_⟩
    rw [← Except.ok.inj h, String.toList_append]

/-- **Different names.** Whatever marker begins with a dot, different names have different output names. -/
theorem hintName_injective (hmarker : marker.toList.head? = some '.') (ha : Path.IsPart a) (hb : Path.IsPart b)
    (hhint : hintName a marker = .ok hint) (hhint' : hintName b marker = .ok hint) : a = b := by
  rcases hintName_cases ha hhint with ⟨stem, ext, hexta, heqa⟩ | ⟨hplaina, heqa⟩ <;>
    rcases hintName_cases hb hhint' with ⟨stem', ext', hextb, heqb⟩ | ⟨hplainb, heqb⟩
  · -- both are split where the output name is split
    have hstem : ∀ {s : List Char}, s ≠ [] → s ++ marker.toList ≠ [] := fun hs => List.append_ne_nil_of_left_ne_nil hs _
    have hsplit := Path.splitName_of_extended ⟨heqa, hstem hexta.stem_ne, hexta.ext_ne, hexta.dot_not_mem⟩
    rw [Path.splitName_of_extended ⟨heqb, hstem hextb.stem_ne, hextb.ext_ne, hextb.dot_not_mem⟩] at hsplit
    obtain ⟨hfront, hback⟩ := Prod.mk.inj hsplit
    obtain rfl := List.append_cancel_right (String.ofList_injective hfront)
    obtain ⟨-, rfl⟩ := List.cons.inj (String.ofList_injective hback)
    exact String.toList_injective (hexta.eq.trans hextb.eq.symm)
  · obtain ⟨ext', hext'⟩ := hexta.of_meets hmarker (heqa.symm.trans heqb)
    exact absurd hext' (hplainb stem ext')
  · obtain ⟨ext, hext⟩ := hextb.of_meets hmarker (heqb.symm.trans heqa)
    exact absurd hext (hplaina stem' ext)
  · exact String.toList_injective (List.append_cancel_right (heqa.symm.trans heqb))

/-- **Characters.** An output name has the characters of the name and of the marker. -/
theorem toList_hint_perm (hpart : Path.IsPart artifact) (h : hintName artifact marker = .ok hint) :
    hint.toList.Perm (artifact.toList ++ marker.toList) := by
  rcases hintName_cases hpart h with ⟨stem, ext, hext, heq⟩ | ⟨-, heq⟩
  · rw [heq, hext.eq, List.append_assoc, List.append_assoc]
    exact List.Perm.append_left stem List.perm_append_comm
  · rw [heq]

/-- what a name begins with, its output name begins with, unless it is the marker -/
theorem head?_hint (hpart : Path.IsPart artifact) (h : hintName artifact marker = .ok hint) :
    hint.toList.head? = artifact.toList.head? := by
  rcases hintName_cases hpart h with ⟨stem, ext, hext, heq⟩ | ⟨-, heq⟩
  · rw [heq, hext.eq, List.append_assoc, List.head?_append_of_ne_nil _ hext.stem_ne,
      List.head?_append_of_ne_nil _ hext.stem_ne]
  · have hne : artifact.toList ≠ [] := fun hnil => hpart.1 (String.toList_eq_nil_iff.1 hnil)
    rw [heq, List.head?_append_of_ne_nil _ hne]

/-- **Bare names.** An output name is bare exactly when there is no slash in the marker. -/
theorem isBareName_hint_iff (hlength : 2 ≤ marker.length) (hpart : Path.IsPart artifact)
    (h : hintName artifact marker = .ok hint) : Path.IsBareName hint ↔ '/' ∉ marker.toList := by
  have hperm := toList_hint_perm hpart h
  have hslash : '/' ∈ hint.toList ↔ '/' ∈ marker.toList := by
    rw [hperm.mem_iff, List.mem_append]
    exact or_iff_right hpart.2.2
  have hlong : 3 ≤ hint.length := by
    have hsum := hperm.length_eq
    have hne : artifact.toList.length ≠ 0 := by
      simpa using hpart.1
    simp only [List.length_append, String.length_toList] at hsum hne
    omega
  have hother : ∀ s : String, s.length < 3 → hint ≠ s := by
    rintro s hs rfl
    omega
  constructor
  · intro hbare hmem
    exact hbare.2.2.2 (hslash.2 hmem)
  · intro hfree
    exact ⟨hother "" (by decide), hother "." (by decide), hother ".." (by decide), fun hmem => hfree (hslash.1 hmem)⟩

/-- an output name leads on from any folder by its parts -/
theorem parts_div_hint (out : Path) (hpart : Path.IsPart artifact) (h : hintName artifact marker = .ok hint) :
    (out / hint).start = out.start ∧ (out / hint).parts = out.parts ++ Path.partsOf hint := by
  have hhead : hint.toList.head? ≠ some '/' := by
    rw [head?_hint hpart h]
    intro hslash
    exact hpart.2.2 (List.mem_of_head? hslash)
  have hstart : (Path.ofString hint).start = .here := by
    change Path.startOf hint.toList = .here
    unfold Path.startOf
    split
    · rename_i heq
      simp [heq] at hhead
    · rename_i heq
      simp [heq] at hhead
    · rename_i heq
      simp [heq] at hhead
    · rfl
  change (out.join (Path.ofString hint)).start = _ ∧ (out.join (Path.ofString hint)).parts = _
  rw [Path.join, hstart]
  exact ⟨rfl, rfl⟩

end Names

end SignalWiring
