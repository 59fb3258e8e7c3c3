/-
Computations that may refuse.

- `Meets P x`: `x` ends in a value with `P`, or in a local fault, which is a broken invariant or bytes that cannot be
  decoded, with a wording of its own. `Meets` passes through every step of a computation, so one walk over a reader shows
  both what it gives and how it can fail.
- `bind_eq_ok`, `mapM_eq_ok`, `exists_mapM`, `mapM_of_forall₂`, `mapM_eq_map`: a computation that gives a value did so at
  every step, and the other way round.
- `bind_map`, `bind_same`, `map_map`, `mapM_map`: a change of the inputs that every step only passes on to its result
  changes the result alone.
-/
import Mathlib.Tactic
import SignalWiring.Fault

namespace SignalWiring

/-- a fault of one artifact: it lies in a value or in bytes, and has a wording -/
def Fault.IsLocal (f : Fault) : Prop := f.isValue = true ∧ f.message ≠ ""

theorem append_ne_empty_left {s t : String} (h : s ≠ "") : s ++ t ≠ "" := by
  intro hst
  exact h (String.append_eq_empty_iff.1 hst).1

theorem append_ne_empty_right {s t : String} (h : t ≠ "") : s ++ t ≠ "" := by
  intro hst
  exact h (String.append_eq_empty_iff.1 hst).2

theorem Invalid.digitsMessage_ne (limit : ℕ) : digitsMessage limit ≠ "" := append_ne_empty_right (by decide)

theorem Invalid.showing_ne {n : ℤ} {text : String} (h : text ≠ "") : showing n text ≠ "" := by
  unfold showing
  split
  · exact digitsMessage_ne _
  · exact h

/-- every broken invariant has a wording, unless it is a refusal in words of its own -/
theorem Invalid.message_ne {cause : Invalid} (h : ∀ text, cause ≠ .other text) : cause.message ≠ "" := by
  cases cause with
  | other text => exact absurd rfl (h text)
  | recordAndDiagnostic => exact by decide
  | unnamedPath => exact by decide
  | tooManyDigits limit => exact digitsMessage_ne limit
  | lineNotPositive | columnNegative | identifierNotPositive => exact showing_ne (append_ne_empty_left (by decide))
  | noReverse => exact showing_ne (append_ne_empty_right (by decide))
  | repeatedParameter | unnamedParameter | unknownLevel | unknownLogFormat => exact append_ne_empty_left (by decide)
  | empty | suffixMissing | eventNotPrefix | otherContext | hintIsArtifact | sizesDiffer | originNotDiscovered
  | repeatedOutput | tooLongNumeral => exact append_ne_empty_right (by decide)

theorem Text.Utf8.Fault.message_ne (cause : Text.Utf8.Fault) : cause.message ≠ "" := by
  by_cases h : cause.length ≤ 1
  · rw [Text.Utf8.Fault.message, if_pos h]
    iterate 5 apply append_ne_empty_left
    decide
  · rw [Text.Utf8.Fault.message, if_neg h]
    iterate 5 apply append_ne_empty_left
    decide

theorem Fault.isLocal_invalid {cause : Invalid} (h : ∀ text, cause ≠ .other text) : (Fault.invalid cause).IsLocal :=
  ⟨rfl, Invalid.message_ne h⟩

theorem Fault.isLocal_emptyField (field : String) : (Fault.emptyField field).IsLocal :=
  Fault.isLocal_invalid fun _ h => by cases h

theorem Fault.isLocal_undecodable (cause : Text.Utf8.Fault) : (Fault.undecodable cause).IsLocal :=
  ⟨rfl, cause.message_ne⟩

/-! ## Values with a property, or a local fault -/

section Meets

variable {α β : Type}

/-- a value with `P`, or a local fault -/
def Meets (P : α → Prop) : Except Fault α → Prop
  | .ok a => P a
  | .error f => f.IsLocal

theorem Meets.of_ok {P : α → Prop} {x : Except Fault α} {a : α} (h : Meets P x) (hx : x = .ok a) : P a := by
  rw [hx] at h
  exact h

theorem Meets.of_error {P : α → Prop} {x : Except Fault α} {f : Fault} (h : Meets P x) (hx : x = .error f) :
    f.IsLocal := by
  rw [hx] at h
  exact h

theorem Meets.imp {P Q : α → Prop} {x : Except Fault α} (h : Meets P x) (hpq : ∀ a, P a → Q a) : Meets Q x := by
  cases x with
  | ok a => exact hpq a h
  | error f => exact h

theorem Meets.bind {P : α → Prop} {Q : β → Prop} {x : Except Fault α} {f : α → Except Fault β} (hx : Meets P x)
    (hf : ∀ a, P a → Meets Q (f a)) : Meets Q (x >>= f) := by
  cases x with
  | ok a => exact hf a hx
  | error e => exact hx

theorem Meets.map {P : α → Prop} {Q : β → Prop} {x : Except Fault α} {f : α → β} (hx : Meets P x)
    (hf : ∀ a, P a → Q (f a)) : Meets Q (x.map f) := by
  cases x with
  | ok a => exact hf a hx
  | error e => exact hx

theorem Meets.mapM {P : β → Prop} {f : α → Except Fault β} {as : List α} (h : ∀ a ∈ as, Meets P (f a)) :
    Meets (fun bs => ∀ b ∈ bs, P b) (as.mapM f) := by
  induction as with
  | nil =>
    rw [List.mapM_nil]
    intro b hb
    cases hb
  | cons a rest ih =>
    rw [List.mapM_cons]
    refine (h a List.mem_cons_self).bind fun b hb => ?_
    refine (ih fun x hx => h x (List.mem_cons_of_mem _ hx)).bind fun bs hbs => ?_
    intro x hx
    rcases List.mem_cons.1 hx with rfl | hx
    · exact hb
    · exact hbs x hx

end Meets

/-! ## Values step by step -/

section Steps

variable {α β : Type}

theorem map_eq_ok {x : Except Fault α} {f : α → β} {b : β} (h : x.map f = .ok b) : ∃ a, x = .ok a ∧ f a = b := by
  cases x with
  | ok a => exact ⟨a, rfl, Except.ok.inj h⟩
  | error e => cases h

theorem bind_eq_ok {x : Except Fault α} {f : α → Except Fault β} {b : β} (h : x >>= f = .ok b) :
    ∃ a, x = .ok a ∧ f a = .ok b := by
  cases x with
  | ok a => exact ⟨a, rfl, h⟩
  | error e => cases h

theorem eq_ok_of_toOption {ε : Type} {x : Except ε α} {a : α} (h : x.toOption = some a) : x = .ok a := by
  cases x with
  | ok b => exact congrArg Except.ok (Option.some.inj h)
  | error e => cases h

theorem mapM_eq_ok {f : α → Except Fault β} {as : List α} {bs : List β} (h : as.mapM f = .ok bs) :
    List.Forall₂ (fun a b => f a = .ok b) as bs := by
  induction as generalizing bs with
  | nil =>
    cases h
    exact .nil
  | cons a rest ih =>
    rw [List.mapM_cons] at h
    obtain ⟨b, hb, h⟩ := bind_eq_ok h
    obtain ⟨more, hmore, h⟩ := bind_eq_ok h
    cases h
    exact .cons hb (ih hmore)

theorem exists_mapM {f : α → Except Fault β} {as : List α} (h : ∀ a ∈ as, ∃ b, f a = .ok b) :
    ∃ bs, as.mapM f = .ok bs := by
  induction as with
  | nil => exact ⟨[], rfl⟩
  | cons a rest ih =>
    obtain ⟨b, hb⟩ := h a List.mem_cons_self
    obtain ⟨bs, hbs⟩ := ih fun x hx => h x (List.mem_cons_of_mem _ hx)
    refine ⟨b :: bs, ?_⟩
    rw [List.mapM_cons, hb, hbs]
    rfl

theorem mapM_of_forall₂ {f : α → Except Fault β} {as : List α} {bs : List β}
    (h : List.Forall₂ (fun a b => f a = .ok b) as bs) : as.mapM f = .ok bs := by
  induction h with
  | nil => rfl
  | cons hb _ ih =>
    rw [List.mapM_cons, hb, ih]
    rfl

theorem mapM_eq_map {f : α → Except Fault β} {g : α → β} {as : List α} (h : ∀ a ∈ as, f a = .ok (g a)) :
    as.mapM f = .ok (as.map g) :=
  mapM_of_forall₂ (List.forall₂_map_right_iff.2 (List.forall₂_same.2 h))

theorem mapM_congr {f f' : α → Except Fault β} {as : List α} (h : ∀ a ∈ as, f a = f' a) : as.mapM f = as.mapM f' := by
  induction as with
  | nil => rfl
  | cons a rest ih =>
    have hrest := ih fun x hx => h x (List.mem_cons_of_mem _ hx)
    rw [List.mapM_cons, List.mapM_cons, h a List.mem_cons_self, hrest]

end Steps

/-! ## Changes that are passed on -/

section Passing

variable {α α' β β' : Type}

theorem bind_map {x : Except Fault α} {x' : Except Fault α'} {f : α → Except Fault β} {f' : α' → Except Fault β'}
    {g : α → α'} {h : β → β'} (hx : x' = x.map g) (hf : ∀ a, f' (g a) = (f a).map h) :
    x' >>= f' = (x >>= f).map h := by
  subst hx
  cases x with
  | ok a => exact hf a
  | error e => rfl

/-- a step that does not depend on the inputs -/
theorem bind_same {x : Except Fault α} {f : α → Except Fault β} {f' : α → Except Fault β'} {h : β → β'}
    (hf : ∀ a, f' a = (f a).map h) : x >>= f' = (x >>= f).map h := by
  cases x with
  | ok a => exact hf a
  | error e => rfl

/-- a last step that only wraps what it is given -/
theorem map_map {x : Except Fault α} {x' : Except Fault α'} {f : α → β} {f' : α' → β'} {g : α → α'} {h : β → β'}
    (hx : x' = x.map g) (hf : ∀ a, f' (g a) = h (f a)) : x'.map f' = (x.map f).map h := by
  subst hx
  cases x with
  | ok a => exact congrArg Except.ok (hf a)
  | error e => rfl

theorem mapM_map {f : α → Except Fault β} {f' : α → Except Fault β'} {g : β → β'} {as : List α}
    (h : ∀ a ∈ as, f' a = (f a).map g) : as.mapM f' = (as.mapM f).map (List.map g) := by
  induction as with
  | nil => rfl
  | cons a rest ih =>
    rw [List.mapM_cons, List.mapM_cons]
    refine bind_map (h a List.mem_cons_self) fun b => ?_
    refine bind_map (ih fun x hx => h x (List.mem_cons_of_mem _ hx)) fun bs => ?_
    rfl

end Passing

end SignalWiring
