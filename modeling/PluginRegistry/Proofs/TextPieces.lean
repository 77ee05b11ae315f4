import Mathlib.Data.List.DropRight
import PluginRegistry.Text.Blank
import PluginRegistry.Text.Split

/-!
# Runs, pieces and blanks of a text

A text is read by runs of characters of one kind, by pieces between separators, and without the
blanks around it. A run ends where the next character is of another kind. Pieces are told from the
text and the text from its pieces, as long as no piece has the separator in it. Of what is trimmed
nothing is left that would be trimmed once more.
-/

namespace PluginRegistry.Text

/-! ## Runs -/

/-- A run is read up to the first character that is of another kind. -/
theorem span_run {p : Char → Bool} {run rest : List Char} (hrun : ∀ c ∈ run, p c)
    (hrest : ∀ c ∈ rest.head?, p c = false) :
    (run ++ rest).takeWhile p = run ∧ (run ++ rest).dropWhile p = rest := by
  induction run with
  | nil =>
      cases rest with
      | nil => exact ⟨rfl, rfl⟩
      | cons c rest =>
          have hc : p c = false := hrest c rfl
          simp [hc]
  | cons c run ih =>
      obtain ⟨hc, hrun⟩ := List.forall_mem_cons.mp hrun
      obtain ⟨htaken, hdropped⟩ := ih hrun
      simp [hc, htaken, hdropped]

/-- What holds of every character of a run, and of the one after it, holds of the first one. -/
theorem forall_head?_append {P : Char → Prop} {run rest : List Char} (hrun : ∀ c ∈ run, P c)
    (hrest : ∀ c ∈ rest.head?, P c) : ∀ c ∈ (run ++ rest).head?, P c := by
  cases run with
  | nil => exact hrest
  | cons first run =>
      rintro c ⟨rfl⟩
      exact hrun first List.mem_cons_self

/-- A run with at least one character in it. -/
theorem isRun_iff {p : Char → Bool} {cs : List Char} :
    (!cs.isEmpty && cs.all p) = true ↔ cs ≠ [] ∧ ∀ c ∈ cs, p c := by
  rw [Bool.and_eq_true, List.all_eq_true, Bool.not_eq_true', List.isEmpty_eq_false_iff]

/-- Every character of the text is of one kind. It is decided by going through the text, and not
through all characters that there are. -/
def Throughout (P : Char → Prop) (cs : List Char) : Prop := ∀ c ∈ cs, P c

instance {P : Char → Prop} [DecidablePred P] : DecidablePred (Throughout P) :=
  fun cs => List.decidableBAll P cs

theorem throughout_append {P : Char → Prop} {a b : List Char} :
    Throughout P (a ++ b) ↔ Throughout P a ∧ Throughout P b := List.forall_mem_append

/-- The letters and digits of ASCII, by where they stand. -/
theorem isAlphanum_iff {c : Char} : c.isAlphanum ↔
    ('a' ≤ c ∧ c ≤ 'z') ∨ ('A' ≤ c ∧ c ≤ 'Z') ∨ ('0' ≤ c ∧ c ≤ '9') := by
  unfold Char.isAlphanum Char.isAlpha Char.isUpper Char.isLower Char.isDigit
  simp only [Bool.or_eq_true, Bool.and_eq_true, decide_eq_true_eq, Char.le_def]
  tauto

/-! ## Pieces -/

theorem splitAt_separator (separator : Char) (rest : List Char) :
    splitAt separator (separator :: rest) = [] :: splitAt separator rest := if_pos rfl

/-- A character that is no separator belongs to the first piece. -/
theorem splitAt_other {separator c : Char} {rest piece : List Char} {pieces : List (List Char)}
    (hc : c ≠ separator) (hrest : splitAt separator rest = piece :: pieces) :
    splitAt separator (c :: rest) = (c :: piece) :: pieces :=
  (if_neg hc).trans (by rw [hrest])

theorem splitAt_of_notMem {separator : Char} {cs : List Char} (h : separator ∉ cs) :
    splitAt separator cs = [cs] := by
  induction cs with
  | nil => rfl
  | cons c rest ih =>
      rw [List.mem_cons, not_or] at h
      exact splitAt_other (Ne.symm h.1) (ih h.2)

theorem splitAt_append {separator : Char} {cs : List Char} (rest : List Char)
    (h : separator ∉ cs) :
    splitAt separator (cs ++ separator :: rest) = cs :: splitAt separator rest := by
  induction cs with
  | nil => exact splitAt_separator separator rest
  | cons c cs ih =>
      rw [List.mem_cons, not_or] at h
      exact splitAt_other (Ne.symm h.1) (ih h.2)

/-- A text has a first piece, be it empty. -/
theorem exists_splitAt (separator : Char) (cs : List Char) :
    ∃ piece pieces, splitAt separator cs = piece :: pieces := by
  induction cs with
  | nil => exact ⟨[], [], rfl⟩
  | cons c rest ih =>
      by_cases hc : c = separator
      · subst hc
        exact ⟨_, _, splitAt_separator c rest⟩
      · obtain ⟨piece, pieces, hrest⟩ := ih
        exact ⟨_, _, splitAt_other hc hrest⟩

/-- The pieces give the text back. -/
theorem intercalate_splitAt (separator : Char) (cs : List Char) :
    [separator].intercalate (splitAt separator cs) = cs := by
  induction cs with
  | nil => rfl
  | cons c rest ih =>
      obtain ⟨piece, pieces, hrest⟩ := exists_splitAt separator rest
      rw [hrest] at ih
      by_cases hc : c = separator
      · subst hc
        rw [splitAt_separator, hrest, List.intercalate_cons_cons, ih]
        rfl
      · rw [splitAt_other hc hrest]
        cases pieces with
        | nil => rw [List.intercalate_singleton] at ih ⊢; rw [ih]
        | cons next pieces =>
            rw [List.intercalate_cons_cons] at ih ⊢
            rw [← ih]
            rfl

/-- A character of a text is the separator or in a piece between separators. -/
theorem mem_splitAt {separator c : Char} {cs : List Char} (h : c ∈ cs) :
    c = separator ∨ ∃ piece ∈ splitAt separator cs, c ∈ piece := by
  induction cs with
  | nil => cases h
  | cons first rest ih =>
      by_cases hfirst : first = separator
      · subst hfirst
        rw [splitAt_separator]
        rcases List.mem_cons.mp h with rfl | hrest
        · exact .inl rfl
        · exact (ih hrest).imp_right fun ⟨piece, hpiece, hc⟩ =>
            ⟨piece, List.mem_cons_of_mem _ hpiece, hc⟩
      · obtain ⟨piece, pieces, hsplit⟩ := exists_splitAt separator rest
        rw [splitAt_other hfirst hsplit]
        rcases List.mem_cons.mp h with rfl | hrest
        · exact .inr ⟨c :: piece, List.mem_cons_self, List.mem_cons_self⟩
        · refine (ih hrest).imp_right fun ⟨found, hfound, hc⟩ => ?_
          rw [hsplit] at hfound
          rcases List.mem_cons.mp hfound with rfl | hfound
          · exact ⟨first :: found, List.mem_cons_self, List.mem_cons_of_mem _ hc⟩
          · exact ⟨found, List.mem_cons_of_mem _ hfound, hc⟩

theorem notMem_of_mem_splitAt {separator : Char} {cs piece : List Char}
    (h : piece ∈ splitAt separator cs) : separator ∉ piece := by
  induction cs generalizing piece with
  | nil =>
      rw [List.mem_singleton.mp h]
      exact List.not_mem_nil
  | cons c rest ih =>
      by_cases hc : c = separator
      · subst hc
        rw [splitAt_separator] at h
        rcases List.mem_cons.mp h with rfl | h
        · exact List.not_mem_nil
        · exact ih h
      · obtain ⟨first, pieces, hsplit⟩ := exists_splitAt separator rest
        rw [hsplit] at ih
        rw [splitAt_other hc hsplit] at h
        rcases List.mem_cons.mp h with rfl | h
        · rw [List.mem_cons, not_or]
          exact ⟨Ne.symm hc, ih List.mem_cons_self⟩
        · exact ih (List.mem_cons_of_mem _ h)

/-- What stands in a piece stands in the text. -/
theorem subset_of_mem_splitAt {separator : Char} {cs piece : List Char}
    (h : piece ∈ splitAt separator cs) : piece ⊆ cs := by
  induction cs generalizing piece with
  | nil =>
      rw [List.mem_singleton.mp h]
      exact List.nil_subset _
  | cons c rest ih =>
      by_cases hc : c = separator
      · subst hc
        rw [splitAt_separator] at h
        rcases List.mem_cons.mp h with rfl | h
        · exact List.nil_subset _
        · exact List.subset_cons_of_subset c (ih h)
      · obtain ⟨first, pieces, hsplit⟩ := exists_splitAt separator rest
        rw [hsplit] at ih
        rw [splitAt_other hc hsplit] at h
        rcases List.mem_cons.mp h with rfl | h
        · exact List.cons_subset_cons c (ih List.mem_cons_self)
        · exact List.subset_cons_of_subset c (ih (List.mem_cons_of_mem _ h))

theorem splitAt_intercalate {separator : Char} {pieces : List (List Char)} (hne : pieces ≠ [])
    (h : ∀ piece ∈ pieces, separator ∉ piece) :
    splitAt separator ([separator].intercalate pieces) = pieces := by
  induction pieces with
  | nil => exact absurd rfl hne
  | cons piece rest ih =>
      obtain ⟨hpiece, hrest⟩ := List.forall_mem_cons.mp h
      cases rest with
      | nil => rw [List.intercalate_singleton, splitAt_of_notMem hpiece]
      | cons next rest =>
          rw [List.intercalate_cons_cons, List.append_assoc, List.singleton_append,
            splitAt_append _ hpiece, ih (List.cons_ne_nil _ _) hrest]

/-- A text has the characters of its pieces, and of what is put between them. -/
theorem throughout_intercalate {P : Char → Prop} {between : List Char} {pieces : List (List Char)}
    (hbetween : Throughout P between) (hpieces : ∀ piece ∈ pieces, Throughout P piece) :
    Throughout P (between.intercalate pieces) := by
  match pieces with
  | [] => exact List.forall_mem_nil _
  | [piece] =>
      rw [List.intercalate_singleton]
      exact hpieces piece List.mem_cons_self
  | piece :: next :: rest =>
      obtain ⟨hfirst, hrest⟩ := List.forall_mem_cons.mp hpieces
      rw [List.intercalate_cons_cons, throughout_append, throughout_append]
      exact ⟨⟨hfirst, hbetween⟩, throughout_intercalate hbetween hrest⟩

/-- **A text is cut into the pieces of which it is made.** -/
theorem splitAt_eq_iff {separator : Char} {cs : List Char} {pieces : List (List Char)}
    (hne : pieces ≠ []) : splitAt separator cs = pieces ↔
      (∀ piece ∈ pieces, separator ∉ piece) ∧ cs = [separator].intercalate pieces := by
  constructor
  · rintro rfl
    exact ⟨fun piece hpiece => notMem_of_mem_splitAt hpiece, (intercalate_splitAt _ _).symm⟩
  · rintro ⟨hplain, rfl⟩
    exact splitAt_intercalate hne hplain

/-- Pieces that were joined are found again. -/
theorem split_intercalate {pieces : List String} (hne : pieces ≠ [])
    (h : ∀ piece ∈ pieces, '/' ∉ piece.toList) : split '/' ("/".intercalate pieces) = pieces := by
  have hplain : ∀ piece ∈ pieces.map String.toList, '/' ∉ piece := by
    intro piece hpiece
    obtain ⟨text, htext, rfl⟩ := List.mem_map.mp hpiece
    exact h text htext
  have hsplit := splitAt_intercalate (by simpa using hne) hplain
  unfold split
  rw [String.toList_intercalate]
  show (splitAt '/' (['/'].intercalate _)).map _ = _
  rw [hsplit, List.map_map]
  conv_rhs => rw [← List.map_id pieces]
  exact List.map_congr_left fun text _ => String.ofList_toList

/-! ## Blanks -/

theorem trim_sublist (cs : List Char) : (trim cs).Sublist cs :=
  (List.rdropWhile_prefix isBlank _).sublist.trans (List.dropWhile_sublist _)

/-- What is neither blank at its start nor at its end is found between blanks. -/
theorem trim_between {lead cs trail : List Char} (hlead : ∀ c ∈ lead, isBlank c)
    (htrail : ∀ c ∈ trail, isBlank c) (hfirst : ∀ c ∈ cs.head?, isBlank c = false)
    (hlast : ∀ c ∈ cs.getLast?, isBlank c = false) : trim (lead ++ (cs ++ trail)) = cs := by
  unfold trim trimEnd
  rw [List.dropWhile_append_of_pos hlead]
  cases cs with
  | nil =>
      rw [List.nil_append, List.dropWhile_eq_nil_iff.mpr htrail]
      rfl
  | cons c rest =>
      have hc : isBlank c = false := hfirst c rfl
      have hkept : (c :: rest ++ trail).dropWhile isBlank = c :: rest ++ trail := by simp [hc]
      have hreversed := (@span_run isBlank trail.reverse (c :: rest).reverse
        (fun c hc => htrail c (List.mem_reverse.mp hc))
        (fun c hc => hlast c (by rwa [List.head?_reverse] at hc))).2
      rw [hkept, List.reverse_append, hreversed, List.reverse_reverse]

/-- A text with no blank at either end is left alone. -/
theorem trim_of_tidy {cs : List Char} (hfirst : ∀ c ∈ cs.head?, isBlank c = false)
    (hlast : ∀ c ∈ cs.getLast?, isBlank c = false) : trim cs = cs := by
  have h := @trim_between [] cs [] nofun nofun hfirst hlast
  rwa [List.nil_append, List.append_nil] at h

/-- A text without any blank has none at its ends. -/
theorem ends_of_solid {cs : List Char} (h : Throughout (fun c => isBlank c = false) cs) :
    (∀ c ∈ cs.head?, isBlank c = false) ∧ ∀ c ∈ cs.getLast?, isBlank c = false :=
  ⟨fun c hc => h c (List.mem_of_head? hc), fun c hc => h c (List.mem_of_getLast? hc)⟩

/-- A trimmed text does not begin with a blank. -/
theorem first_trim {cs : List Char} : ∀ c ∈ (trim cs).head?, isBlank c = false := by
  intro c hc
  -- the first character is that of the text without the blanks at its start
  obtain ⟨trail, htrail⟩ := List.rdropWhile_prefix isBlank (cs.dropWhile isBlank)
  have hfirst : (cs.dropWhile isBlank).head? = some c := by
    rw [← htrail]
    show (trim cs ++ trail).head? = some c
    rw [List.head?_append, Option.mem_def.mp hc]
    rfl
  have hnot := List.head?_dropWhile_not isBlank cs
  rw [hfirst] at hnot
  exact hnot

/-- It does not end with one either. -/
theorem last_trim {cs : List Char} : ∀ c ∈ (trim cs).getLast?, isBlank c = false := by
  intro c hc
  have hne : trim cs ≠ [] := List.ne_nil_of_mem (List.mem_of_getLast? hc)
  have hlast := List.rdropWhile_last_not isBlank (cs.dropWhile isBlank) hne
  rw [List.getLast?_eq_some_getLast hne, Option.mem_some] at hc
  rw [← hc]
  exact Bool.eq_false_iff.mpr hlast

/-- Trimming twice is trimming once. -/
theorem trim_trim (cs : List Char) : trim (trim cs) = trim cs := trim_of_tidy first_trim last_trim

theorem trimmed_trimmed (text : String) : trimmed (trimmed text) = trimmed text := by
  unfold trimmed
  rw [String.toList_ofList, trim_trim]

end PluginRegistry.Text
