import PluginRegistry.Proofs.CleanedText

/-!
# Separators that cleaning lets through

The cleaning leaves out the line breaks and the control characters of ASCII, and it keeps whatever
is blank. Three blanks beyond ASCII end a line nevertheless: the next-line control, which is a
control character too, and the separators of lines and of paragraphs. No other character that ends a
line and no other control character but the tab is ever left.

A separator goes through every pass, since it is part of no code, and each pass treats the text
before it and the text after it on their own. At the ends of the text it is trimmed like any blank.
So a cleaned value has a separator in it exactly if the cut text has one with something visible left
of what stands before it and of what stands after it.
-/

namespace PluginRegistry

/-! ## Blanks inside a text -/

namespace Text

theorem dropWhile_append_of_exists {p : Char → Bool} {cs rest : List Char}
    (h : ∃ c ∈ cs, p c = false) : (cs ++ rest).dropWhile p = cs.dropWhile p ++ rest := by
  obtain ⟨c, hc, hp⟩ := h
  have hleft : cs.dropWhile p ≠ [] := by
    intro hnil
    rw [List.dropWhile_eq_nil_iff.mp hnil c hc] at hp
    cases hp
  rw [List.dropWhile_append, if_neg (by simpa using hleft)]

theorem trimEnd_append_of_exists {cs rest : List Char} (h : ∃ c ∈ rest, isBlank c = false) :
    trimEnd (cs ++ rest) = cs ++ trimEnd rest := by
  obtain ⟨c, hc, hblank⟩ := h
  unfold trimEnd
  rw [List.reverse_append, dropWhile_append_of_exists ⟨c, List.mem_reverse.mpr hc, hblank⟩,
    List.reverse_append, List.reverse_reverse]

/-- What trimming leaves is a part of the text in one piece. -/
theorem trim_infix (cs : List Char) : trim cs <:+: cs :=
  (List.rdropWhile_prefix isBlank _).isInfix.trans (List.dropWhile_suffix isBlank).isInfix

/-- A blank outlasts trimming where it stands between characters that are not blank. -/
theorem mem_trim_iff_of_isBlank {c : Char} (hblank : isBlank c) {cs : List Char} :
    c ∈ trim cs ↔ ∃ before after, cs = before ++ c :: after ∧
      (∃ x ∈ before, isBlank x = false) ∧ ∃ x ∈ after, isBlank x = false := by
  constructor
  · intro hc
    obtain ⟨before, after, htrim⟩ := List.append_of_mem hc
    obtain ⟨lead, trail, hcs⟩ := trim_infix cs
    rw [htrim] at hcs
    refine ⟨lead ++ before, after ++ trail, by rw [← hcs]; simp, ?_, ?_⟩
    · -- the first character that is left is not blank, so it stands before
      cases before with
      | nil =>
          have hfirst := @first_trim cs c (by rw [htrim]; rfl)
          rw [hfirst] at hblank
          cases hblank
      | cons x before =>
          exact ⟨x, by simp, @first_trim cs x (by rw [htrim]; rfl)⟩
    · rcases List.eq_nil_or_concat after with rfl | ⟨after, x, rfl⟩
      · have hlast := @last_trim cs c (by rw [htrim]; exact List.getLast?_concat)
        rw [hlast] at hblank
        cases hblank
      · rw [List.concat_eq_append, ← List.cons_append, ← List.append_assoc] at htrim
        exact ⟨x, by simp, @last_trim cs x (by rw [htrim]; exact List.getLast?_concat)⟩
  · rintro ⟨before, after, rfl, hbefore, x, hx, hafter⟩
    unfold trim
    rw [dropWhile_append_of_exists hbefore,
      trimEnd_append_of_exists ⟨x, List.mem_cons_of_mem c hx, hafter⟩, List.mem_append]
    right
    rw [show c :: after = [c] ++ after from rfl, trimEnd_append_of_exists ⟨x, hx, hafter⟩]
    exact List.mem_cons_self

end Text

namespace Log

/-! ## Characters that tear a line -/

/-- The character ends a line, as texts are cut into lines. -/
def EndsLine (c : Char) : Prop := c.toNat ∈ [10, 11, 12, 13, 28, 29, 30, 133, 8232, 8233]

/-- A control character, of ASCII or of the block that follows it. -/
def IsControlCode (c : Char) : Prop := c.toNat < 32 ∨ 127 ≤ c.toNat ∧ c.toNat < 160

/-- The character ends a line, or it is a control character other than the tab. -/
def Tears (c : Char) : Prop := EndsLine c ∨ IsControlCode c ∧ c ≠ '\t'

instance : DecidablePred EndsLine := fun _ => inferInstanceAs (Decidable (_ ∈ _))

instance : DecidablePred IsControlCode := fun _ => inferInstanceAs (Decidable (_ ∨ _))

instance : DecidablePred Tears := fun _ => inferInstanceAs (Decidable (_ ∨ _))

/-- The next-line control, or the separator of lines or of paragraphs. -/
def IsSeparator (c : Char) : Prop := c.toNat = 133 ∨ c.toNat = 8232 ∨ c.toNat = 8233

theorem IsSeparator.tears {c : Char} (h : IsSeparator c) : Tears c := by
  refine .inl ?_
  unfold EndsLine
  rcases h with h | h | h
  all_goals rw [h]; decide

theorem IsSeparator.isBlank {c : Char} (h : IsSeparator c) : Text.isBlank c := by
  unfold Text.isBlank
  dsimp only
  rcases h with h | h | h
  all_goals rw [h]; decide

/-- A separator is beyond ASCII. -/
theorem IsSeparator.le_toNat {c : Char} (h : IsSeparator c) : 128 ≤ c.toNat := by
  unfold IsSeparator at h
  omega

theorem IsSeparator.isKept {c : Char} (h : IsSeparator c) : IsKept c := by
  have hbeyond := h.le_toNat
  exact .of_toNat (.inr h.isBlank) (by omega) (by omega)

/-- Of the characters that are kept, the separators are those that tear a line. -/
theorem IsKept.isSeparator {c : Char} (h : IsKept c) (htears : Tears c) : IsSeparator c := by
  have hcode := h.toNat_cases
  unfold Tears EndsLine IsControlCode at htears
  simp only [List.mem_cons, List.not_mem_nil, or_false, ne_eq, ← Char.toNat_inj,
    Char.reduceToNat] at htears
  rcases h.safe with hvisible | hblank
  · have hbetween := hvisible.toNat_between
    omega
  · unfold Text.isBlank at hblank
    simp only [Bool.or_eq_true, Bool.and_eq_true, decide_eq_true_eq, beq_iff_eq] at hblank
    unfold IsSeparator
    omega

/-! ## Passes that treat both sides on their own -/

/-- A pass that leaves characters out, never this one, and treats the text before it and the text
after it on their own. -/
structure PassesBy (c : Char) (pass : List Char → List Char) : Prop where
  /-- The character stays between what is left of either side. -/
  cut : ∀ before after, pass (before ++ c :: after) = pass before ++ c :: pass after
  /-- Nothing comes in. -/
  subset : ∀ cs, pass cs ⊆ cs

namespace PassesBy

variable {c : Char} {pass next : List Char → List Char}

theorem comp (hnext : PassesBy c next) (h : PassesBy c pass) : PassesBy c (next ∘ pass) where
  cut before after := by
    rw [Function.comp_apply, h.cut, hnext.cut]
    rfl
  subset cs := List.Subset.trans (hnext.subset _) (h.subset cs)

/-- Where the character is left, it stood between texts of which either side is left. -/
theorem exists_of_eq (h : PassesBy c pass) {cs before after : List Char}
    (hcs : pass cs = before ++ c :: after) :
    ∃ before' after', cs = before' ++ c :: after' ∧
      pass before' = before ∧ pass after' = after := by
  -- the text is taken apart at the first of the characters, then at the next one
  induction hlength : cs.length using Nat.strongRecOn generalizing cs before with
  | ind n ih =>
      have hmem : c ∈ cs := h.subset cs (hcs ▸ List.mem_append_right _ List.mem_cons_self)
      obtain ⟨first, rest, rfl, hfirst⟩ := List.eq_append_cons_of_mem hmem
      have hgone : c ∉ pass first := fun hc => hfirst (h.subset first hc)
      rw [h.cut] at hcs
      rcases List.append_eq_append_iff.mp hcs with ⟨more, hbefore, hrest⟩ | ⟨more, hleft, hrest⟩
      · -- it is the first of them, or one of the rest
        cases more with
        | nil =>
            rw [List.append_nil] at hbefore
            exact ⟨first, rest, rfl, hbefore.symm, (List.cons.inj hrest).2⟩
        | cons x more =>
            obtain ⟨rfl, htail⟩ := List.cons.inj hrest
            obtain ⟨before', after', rfl, hmore, hafter⟩ :=
              ih rest.length (by rw [← hlength, List.length_append, List.length_cons]; omega)
                htail rfl
            exact ⟨first ++ c :: before', after', by simp, by rw [h.cut, hmore, hbefore], hafter⟩
      · -- nothing of what stands before the first of them is one
        cases more with
        | nil =>
            rw [List.append_nil] at hleft
            exact ⟨first, rest, rfl, hleft, (List.cons.inj hrest).2.symm⟩
        | cons x more =>
            obtain ⟨rfl, _⟩ := List.cons.inj hrest
            exact absurd (hleft ▸ List.mem_append_right _ List.mem_cons_self) hgone

end PassesBy

theorem passesBy_filter {c : Char} {keeps : Char → Bool} (h : keeps c) :
    PassesBy c (List.filter keeps) where
  cut before after := by rw [List.filter_append, List.filter_cons_of_pos h]
  subset _ := List.filter_sublist.subset

/-- Where no code begins, the first character stays. -/
theorem dropEncodedBreaks_cons {c : Char} {cs : List Char}
    (h : ∀ last rest, c = '%' → cs = '0' :: last :: rest → ¬(last = 'a' ∨ last = 'd')) :
    dropEncodedBreaks (c :: cs) = c :: dropEncodedBreaks cs := by
  conv_lhs => unfold dropEncodedBreaks
  split
  · rename_i last rest heq
    obtain ⟨hfirst, hcode⟩ := List.cons.inj heq
    rw [if_neg (h last rest hfirst hcode), hfirst, hcode]
  · rename_i heq
    obtain ⟨rfl, rfl⟩ := List.cons.inj heq
    rfl
  · rename_i heq
    cases heq

/-- A character that is part of no code goes through. -/
theorem passesBy_dropEncodedBreaks {c : Char} (h : c ∉ ['%', '0', 'a', 'd']) :
    PassesBy c dropEncodedBreaks where
  cut before after := by
    simp only [List.mem_cons, List.not_mem_nil, or_false, not_or] at h
    obtain ⟨hpercent, hzero, ha, hd⟩ := h
    fun_induction dropEncodedBreaks before with
    | case1 last rest hlast ih =>
        show dropEncodedBreaks ('%' :: '0' :: last :: (rest ++ c :: after)) = _
        rw [dropEncodedBreaks, if_pos hlast, ih]
    | case2 last rest hlast ih =>
        show dropEncodedBreaks ('%' :: '0' :: last :: (rest ++ c :: after)) = _
        rw [dropEncodedBreaks, if_neg hlast]
        exact congrArg _ ih
    | case3 first rest hnone ih =>
        rw [List.cons_append, List.cons_append, ← ih]
        refine dropEncodedBreaks_cons fun last more hfirst hcode hlast => ?_
        -- a code that begins in the text before would have to reach the character
        rcases rest with _ | ⟨zero, _ | ⟨x, rest⟩⟩
        · exact hzero (List.cons.inj hcode).1
        · obtain rfl : c = last := (List.cons.inj (List.cons.inj hcode).2).1
          exact hlast.elim ha hd
        · obtain rfl : zero = '0' := (List.cons.inj hcode).1
          exact hnone x rest hfirst rfl
    | case4 => exact dropEncodedBreaks_cons fun _ _ he => absurd he hpercent
  subset cs := (dropEncodedBreaks_sublist cs).subset

theorem passesBy_clean {c : Char} (hkept : IsKept c) (hcode : c ∉ ['%', '0', 'a', 'd']) :
    PassesBy c clean := by
  have hunbroken : PassesBy c (List.filter (!isLineBreak ·)) :=
    passesBy_filter (by rw [hkept.unbroken]; rfl)
  have hplain : PassesBy c (List.filter (!isControl ·)) :=
    passesBy_filter (by rw [hkept.plain]; rfl)
  have hpasses := (passesBy_filter hkept.isSafe).comp
    (hplain.comp ((passesBy_dropEncodedBreaks hcode).comp hunbroken))
  have heq : clean = List.filter isSafe ∘ List.filter (!isControl ·) ∘ dropEncodedBreaks ∘
      List.filter (!isLineBreak ·) := funext clean_eq
  rwa [heq]

/-! ## Values -/

/-- Something visible is left of the text when it is cleaned. -/
def Shows (cs : List Char) : Prop := ∃ c ∈ clean cs, IsVisible c

theorem IsVisible.isBlank_eq_false {c : Char} (h : IsVisible c) : Text.isBlank c = false := by
  obtain ⟨hfirst, hlast⟩ := h.toNat_between
  unfold Text.isBlank
  simp only [Bool.or_eq_false_iff, Bool.and_eq_false_iff, decide_eq_false_iff_not,
    beq_eq_false_iff_ne]
  omega

/-- What is left is visible or blank, so something visible is what is not blank. -/
theorem shows_iff {cs : List Char} : Shows cs ↔ ∃ c ∈ clean cs, Text.isBlank c = false := by
  constructor
  · rintro ⟨c, hc, hvisible⟩
    exact ⟨c, hc, hvisible.isBlank_eq_false⟩
  · rintro ⟨c, hc, hblank⟩
    have hkept := isKept_of_mem_clean hc
    exact ⟨c, hc, hkept.safe.resolve_right (by rw [hblank]; decide)⟩

/-- A separator is left of a text where something visible is left on either side of one. -/
theorem IsSeparator.mem_trim_clean_iff {c : Char} (h : IsSeparator c) {cs : List Char} :
    c ∈ Text.trim (clean cs) ↔
      ∃ before after, cs = before ++ c :: after ∧ Shows before ∧ Shows after := by
  have hcode : c ∉ ['%', '0', 'a', 'd'] := by
    intro hmem
    have hsmall : Text.Throughout (·.toNat < 128) ['%', '0', 'a', 'd'] := by decide
    exact absurd h.le_toNat (Nat.not_le.mpr (hsmall c hmem))
  have hpasses := passesBy_clean h.isKept hcode
  rw [Text.mem_trim_iff_of_isBlank h.isBlank]
  constructor
  · rintro ⟨before, after, hcs, hbefore, hafter⟩
    obtain ⟨before', after', rfl, rfl, rfl⟩ := hpasses.exists_of_eq hcs
    exact ⟨before', after', rfl, shows_iff.mpr hbefore, shows_iff.mpr hafter⟩
  · rintro ⟨before, after, rfl, hbefore, hafter⟩
    exact ⟨clean before, clean after, hpasses.cut before after, shows_iff.mp hbefore,
      shows_iff.mp hafter⟩

/-- A cut text has the characters of the text, and points. -/
theorem mem_of_mem_shorten {limit : Int} {cs : List Char} {c : Char} (h : c ∈ shorten limit cs) :
    c ∈ cs ∨ c = '.' := by
  unfold shorten cut at h
  split at h
  · rcases List.mem_append.mp h with h | h
    · left
      split at h
      · exact List.mem_of_mem_take h
      · exact List.mem_of_mem_take h
    · exact .inr (by simpa using h)
  · exact .inl h

/-- A text of ASCII has no separator. -/
theorem IsSeparator.notMem_of_ascii {c : Char} (h : IsSeparator c) {text : String}
    (htext : Text.Throughout (·.toNat < 128) text.toList) : c ∉ text.toList :=
  fun hmem => absurd h.le_toNat (Nat.not_le.mpr (htext c hmem))

/-- Neither the placeholder nor the word for null hides a separator or brings one in. -/
theorem IsSeparator.mem_sanitize_iff {c : Char} (h : IsSeparator c) (limit : Int) (value : Json) :
    c ∈ (sanitize limit value).toList ↔
      c ∈ Text.trim (clean (shorten limit value.display.toList)) := by
  by_cases hnull : value = .null
  · subst hnull
    have hnone : c ∉ Json.null.display.toList := h.notMem_of_ascii (by decide)
    have hnull : c ∉ "null".toList := h.notMem_of_ascii (by decide)
    rw [sanitize_null]
    refine iff_of_false hnull fun hmem => ?_
    rcases mem_of_mem_shorten ((clean_sublist _).subset ((Text.trim_sublist _).subset hmem)) with
      hmem | rfl
    · exact hnone hmem
    · exact absurd h.le_toNat (by decide)
  · rw [sanitize_of_ne_null limit hnull]
    unfold sanitizeText safeChars
    dsimp only
    split
    · rename_i hempty
      have hplaceholder : c ∉ placeholder.toList := h.notMem_of_ascii (by decide)
      rw [List.isEmpty_iff.mp hempty]
      exact iff_of_false hplaceholder List.not_mem_nil
    · rw [String.toList_ofList]

/-- **What tears the line of a cleaned value.** Whatever the value and the limit, a character of the
cleaned value that ends a line, or is a control character other than the tab, is a separator; and
the separators that stand in it are those of the cut text with something visible left before them
and after them. -/
theorem torn_iff (limit : Int) (value : Json) (c : Char) :
    Tears c ∧ c ∈ (sanitize limit value).toList ↔
      IsSeparator c ∧ ∃ before after,
        shorten limit value.display.toList = before ++ c :: after ∧ Shows before ∧ Shows after := by
  constructor
  · rintro ⟨htears, hmem⟩
    have hshown : sanitize limit value ≠ "[sanitized]" := by
      intro hplaceholder
      have hplain : Text.Throughout (¬Tears ·) "[sanitized]".toList := by decide
      exact hplain c (hplaceholder ▸ hmem) htears
    have hseparator := (isKept_of_mem_sanitize hshown hmem).isSeparator htears
    rw [hseparator.mem_sanitize_iff, hseparator.mem_trim_clean_iff] at hmem
    exact ⟨hseparator, hmem⟩
  · rintro ⟨hseparator, hsplit⟩
    rw [hseparator.mem_sanitize_iff, hseparator.mem_trim_clean_iff]
    exact ⟨hseparator.tears, hsplit⟩

/-- A next-line control between two letters is shown, the breaks of ASCII at either side of it are
not. -/
theorem torn_iff_nextLine :
    sanitize 100 (.str "a\n\u0085\x1cb") = "a\u0085b" ∧
      Tears '\u0085' ∧ '\u0085' ∈ (sanitize 100 (.str "a\n\u0085\x1cb")).toList := by
  have hshown : sanitize 100 (.str "a\n\u0085\x1cb") = "a\u0085b" := by decide
  have hseparator : IsSeparator '\u0085' := .inl rfl
  exact ⟨hshown, (torn_iff 100 (.str "a\n\u0085\x1cb") '\u0085').mpr ⟨hseparator, ['a', '\n'],
    ['\x1c', 'b'], rfl, ⟨'a', by decide, by decide⟩, ⟨'b', by decide, by decide⟩⟩⟩

end Log

end PluginRegistry
