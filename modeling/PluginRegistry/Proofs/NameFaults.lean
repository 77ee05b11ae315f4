import PluginRegistry.Proofs.TextPieces
import PluginRegistry.Storage.Path
import Mathlib.Data.Option.Basic

/-!
# Texts that can be looked up

Resolving a text looks up its components one after the other, and fails at the first that is no
name. Whether it fails does not depend on the way that the components lead: it fails just if a null
character or a half that no name can have stands anywhere in the text. What it fails with is said of
the first such component, so a text without halves fails with its null character.
-/

namespace PluginRegistry

namespace Text

theorem firstRefused?_eq_none {refused : Char → Bool} {position : Nat} {cs : List Char} :
    firstRefused? refused position cs = none ↔ Throughout (fun c => refused c = false) cs := by
  unfold Throughout
  induction cs generalizing position with
  | nil => simp [firstRefused?]
  | cons c rest ih =>
      rw [firstRefused?, List.forall_mem_cons]
      cases refused c with
      | true => simp
      | false => simpa using ih

/-- There is no half of a pair among the characters of ASCII. -/
theorem half?_of_ascii {text : String} (h : ∀ c ∈ text.toList, c.toNat < 128) :
    half? text = none := by
  refine firstRefused?_eq_none.mpr fun c hc => Bool.eq_false_iff.mpr fun hhalf => ?_
  have hlow := h c hc
  unfold isHalf isHalfUnit halfShift at hhalf
  simp only [Bool.and_eq_true, decide_eq_true_eq] at hhalf
  omega

end Text

namespace Path

variable {path directory : Path} {component text : String}

theorem componentFault?_eq_none :
    path.componentFault? component = none ↔
      '\x00' ∉ component.toList ∧ Text.nameless? component = none := by
  unfold componentFault?
  cases Text.nameless? component with
  | some halves => simp
  | none => simp

theorem firstFault?_eq_none {components : List String} :
    path.firstFault? components = none ↔
      ∀ component ∈ components, '\x00' ∉ component.toList ∧ Text.nameless? component = none := by
  induction components generalizing path with
  | nil => simp [firstFault?]
  | cons component rest ih =>
      rw [firstFault?, Option.orElse_eq_none, componentFault?_eq_none, ih, List.forall_mem_cons]

/-- A text has the kind of characters that its components have, if the slash is of that kind. -/
theorem throughout_split_iff {P : Char → Prop} (hslash : P '/') :
    (∀ component ∈ Text.split '/' text, Text.Throughout P component.toList) ↔
      Text.Throughout P text.toList := by
  unfold Text.split
  rw [List.forall_mem_map]
  constructor
  · intro h c hc
    rcases @Text.mem_splitAt '/' _ _ hc with rfl | ⟨piece, hpiece, hc⟩
    · exact hslash
    · exact h piece hpiece c (by rwa [String.toList_ofList])
  · intro h piece hpiece c hc
    rw [String.toList_ofList] at hc
    exact h c (Text.subset_of_mem_splitAt hpiece hc)

/-- **A text can be resolved just if all its characters can stand in names.** -/
theorem nameFault?_eq_none :
    directory.nameFault? text = none ↔
      '\x00' ∉ text.toList ∧ Text.nameless? text = none := by
  have hnull : ∀ cs : List Char, '\x00' ∉ cs ↔ Text.Throughout (· ≠ '\x00') cs :=
    fun cs => ⟨fun h c hc hnull => h (hnull ▸ hc), fun h hc => h _ hc rfl⟩
  unfold nameFault?
  rw [firstFault?_eq_none, forall₂_and, hnull]
  unfold Text.nameless?
  simp only [hnull, Text.firstRefused?_eq_none]
  rw [throughout_split_iff (by decide), throughout_split_iff (by decide)]

theorem firstFault?_of_octets {components : List String}
    (h : ∀ component ∈ components, Text.nameless? component = none) :
    path.firstFault? components = none ∨ path.firstFault? components = some .nullCharacter := by
  induction components generalizing path with
  | nil => exact .inl rfl
  | cons component rest ih =>
      obtain ⟨hhere, hrest⟩ := List.forall_mem_cons.mp h
      unfold firstFault? componentFault?
      rw [hhere]
      dsimp only
      split
      · exact .inr rfl
      · exact ih hrest

/-- Without halves only the null character is left to be refused. -/
theorem nameFault?_of_null (hnull : '\x00' ∈ text.toList) (hhalves : Text.nameless? text = none) :
    directory.nameFault? text = some .nullCharacter := by
  have hpieces : ∀ component ∈ Text.split '/' text, Text.nameless? component = none := by
    simp only [Text.nameless?, Text.firstRefused?_eq_none] at hhalves ⊢
    exact (throughout_split_iff (by decide)).mpr hhalves
  refine (firstFault?_of_octets hpieces).resolve_left fun hnone => ?_
  exact (nameFault?_eq_none.mp hnone).1 hnull

end Path

end PluginRegistry
