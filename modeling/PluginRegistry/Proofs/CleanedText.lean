import PluginRegistry.Log.Sanitize
import PluginRegistry.Proofs.TextPieces

/-!
# What cleaning leaves of a text

Every pass of the cleaning leaves characters out and changes nothing else, so what is left of a text
stands there in the same order. The last pass is skipped if there is nothing for it to leave out; it
would not have changed such a text, so that looking first makes no difference. A code of a line
break that comes into being when another one is left out is broken by the last pass, which leaves
every percent sign out.

A value is cut before it is cleaned. So what is shown of it has no more characters than the cut
text, unless it is the placeholder, and a text that is short enough and has nothing that the passes
leave out is shown as it is.
-/

namespace PluginRegistry

namespace Log

/-! ## Characters -/

/-- A letter or digit of ASCII, or one of the signs in ids, versions, keys and addresses. -/
def IsVisible (c : Char) : Prop :=
  ('a' ≤ c ∧ c ≤ 'z') ∨ ('A' ≤ c ∧ c ≤ 'Z') ∨ ('0' ≤ c ∧ c ≤ '9') ∨
    c ∈ ['.', '_', '@', '/', '+', '-']

instance : DecidablePred IsVisible := fun _ => inferInstanceAs (Decidable (_ ∨ _))

theorem isSafe_iff {c : Char} : isSafe c ↔ IsVisible c ∨ Text.isBlank c := by
  unfold isSafe IsVisible
  rw [show "._@/+-".toList = ['.', '_', '@', '/', '+', '-'] by decide]
  simp only [Bool.or_eq_true, Text.isAlphanum_iff, List.contains_iff_mem]
  tauto

/-- Visible characters are those of ASCII between the space and the last control character. -/
theorem IsVisible.toNat_between {c : Char} (h : IsVisible c) : 32 < c.toNat ∧ c.toNat < 127 := by
  unfold IsVisible at h
  simp only [Char.le_def, UInt32.le_iff_toNat_le] at h
  rcases h with ⟨hfirst, hlast⟩ | ⟨hfirst, hlast⟩ | ⟨hfirst, hlast⟩ | h
  · exact ⟨Nat.lt_of_lt_of_le (by decide) hfirst, Nat.lt_of_le_of_lt hlast (by decide)⟩
  · exact ⟨Nat.lt_of_lt_of_le (by decide) hfirst, Nat.lt_of_le_of_lt hlast (by decide)⟩
  · exact ⟨Nat.lt_of_lt_of_le (by decide) hfirst, Nat.lt_of_le_of_lt hlast (by decide)⟩
  · have hsigns : Text.Throughout (fun sign => 32 < sign.toNat ∧ sign.toNat < 127)
        ['.', '_', '@', '/', '+', '-'] := by decide
    exact hsigns c h

/-- A character that every pass keeps, wherever it stands. -/
structure IsKept (c : Char) : Prop where
  /-- It is visible or blank. -/
  safe : IsVisible c ∨ Text.isBlank c
  /-- It is no line break. -/
  unbroken : isLineBreak c = false
  /-- It is no control character. -/
  plain : isControl c = false

theorem IsKept.isSafe {c : Char} (h : IsKept c) : isSafe c := isSafe_iff.mpr h.safe

theorem IsKept.ne_percent {c : Char} (h : IsKept c) : c ≠ '%' := by
  rintro rfl
  exact absurd h.isSafe (by decide)

/-- Of the control characters of ASCII only the tab is kept. -/
theorem IsKept.toNat_cases {c : Char} (h : IsKept c) :
    c.toNat = 9 ∨ 32 ≤ c.toNat ∧ c.toNat ≠ 127 := by
  have hbreak := h.unbroken
  have hcontrol := h.plain
  unfold isLineBreak at hbreak
  unfold isControl at hcontrol
  simp only [Bool.or_eq_false_iff, Bool.and_eq_false_iff, decide_eq_false_iff_not,
    ← Char.toNat_inj, Char.reduceToNat] at hbreak hcontrol
  omega

/-- Beyond the control characters of ASCII it is enough to be visible or blank. -/
theorem IsKept.of_toNat {c : Char} (hsafe : IsVisible c ∨ Text.isBlank c) (hfirst : 32 ≤ c.toNat)
    (hdelete : c.toNat ≠ 127) : IsKept c where
  safe := hsafe
  unbroken := by
    unfold isLineBreak
    simp only [Bool.or_eq_false_iff, decide_eq_false_iff_not, ← Char.toNat_inj, Char.reduceToNat]
    omega
  plain := by
    unfold isControl
    simp only [Bool.or_eq_false_iff, Bool.and_eq_false_iff, decide_eq_false_iff_not]
    omega

theorem IsVisible.isKept {c : Char} (h : IsVisible c) : IsKept c := by
  obtain ⟨hfirst, hlast⟩ := h.toNat_between
  exact .of_toNat (.inl h) (Nat.le_of_lt hfirst) (Nat.ne_of_lt hlast)

/-! ## The passes -/

/-- The pieces that are brought together when codes are left out were there before. -/
theorem dropEncodedBreaks_sublist (cs : List Char) : (dropEncodedBreaks cs).Sublist cs := by
  fun_induction dropEncodedBreaks cs with
  | case1 c rest _ ih => exact ((ih.cons c).cons '0').cons '%'
  | case2 c rest _ ih => exact ih.cons_cons '%'
  | case3 c rest _ ih => exact ih.cons_cons c
  | case4 => exact List.Sublist.refl []

/-- Without percent signs there are no codes. -/
theorem dropEncodedBreaks_of_notMem {cs : List Char} (h : '%' ∉ cs) :
    dropEncodedBreaks cs = cs := by
  fun_induction dropEncodedBreaks cs with
  | case1 c rest _ _ => exact absurd List.mem_cons_self h
  | case2 c rest _ _ => exact absurd List.mem_cons_self h
  | case3 c rest _ ih => rw [ih fun hrest => h (List.mem_cons_of_mem c hrest)]
  | case4 => rfl

/-- Looking whether the last pass is needed makes no difference. -/
theorem clean_eq (cs : List Char) :
    clean cs = ((dropEncodedBreaks (cs.filter (!isLineBreak ·))).filter (!isControl ·)).filter
      isSafe := by
  unfold clean isSafeText
  dsimp only
  split
  · rename_i hsafe
    exact (List.filter_eq_self.mpr (Text.isRun_iff.mp hsafe).2).symm
  · rfl

theorem clean_sublist (cs : List Char) : (clean cs).Sublist cs := by
  have hcoded := (dropEncodedBreaks_sublist (cs.filter (!isLineBreak ·))).trans List.filter_sublist
  rw [clean_eq]
  exact (List.filter_sublist.trans List.filter_sublist).trans hcoded

/-- Nothing else is left. -/
theorem isKept_of_mem_clean {cs : List Char} {c : Char} (h : c ∈ clean cs) : IsKept c := by
  rw [clean_eq] at h
  obtain ⟨h, hsafe⟩ := List.mem_filter.mp h
  obtain ⟨h, hplain⟩ := List.mem_filter.mp h
  obtain ⟨_, hunbroken⟩ := List.mem_filter.mp ((dropEncodedBreaks_sublist _).subset h)
  exact ⟨isSafe_iff.mp hsafe, by simpa using hunbroken, by simpa using hplain⟩

/-- A text of characters that are kept is left alone. -/
theorem clean_of_isKept {cs : List Char} (h : ∀ c ∈ cs, IsKept c) : clean cs = cs := by
  have hunbroken : cs.filter (!isLineBreak ·) = cs :=
    List.filter_eq_self.mpr fun c hc => by rw [(h c hc).unbroken]; rfl
  have hplain : cs.filter (!isControl ·) = cs :=
    List.filter_eq_self.mpr fun c hc => by rw [(h c hc).plain]; rfl
  have hcoded : dropEncodedBreaks cs = cs :=
    dropEncodedBreaks_of_notMem fun hmem => (h _ hmem).ne_percent rfl
  rw [clean_eq, hunbroken, hcoded, hplain]
  exact List.filter_eq_self.mpr fun c hc => (h c hc).isSafe

/-! ## Values -/

/-- A text cut after so many characters, with three points after it if some were cut off. -/
def cutAfter (limit : Nat) (cs : List Char) : List Char :=
  if cs.length ≤ limit then cs else cs.take limit ++ ['.', '.', '.']

theorem shorten_eq_cutAfter (limit : Nat) (cs : List Char) :
    shorten limit cs = cutAfter limit cs := by
  unfold shorten cutAfter cut
  by_cases h : cs.length ≤ limit
  · rw [if_pos h, if_neg (by omega)]
  · rw [if_neg h, if_pos (by omega), if_neg (by omega), Int.toNat_natCast]

theorem length_cutAfter_le (limit : Nat) (cs : List Char) :
    (cutAfter limit cs).length ≤ limit + 3 := by
  unfold cutAfter
  split
  · omega
  · rw [List.length_append]
    exact Nat.add_le_add_right (List.length_take_le limit cs) 3

/-- A text that was cleaned is the placeholder, or what is left of it between blanks. -/
theorem sanitizeText_cases (limit : Int) (text : String) :
    sanitizeText limit text = "[sanitized]" ∨
      Text.trim (safeChars limit text.toList) ≠ [] ∧
        (sanitizeText limit text).toList = Text.trim (safeChars limit text.toList) := by
  unfold sanitizeText
  dsimp only
  split
  · exact .inl rfl
  · rename_i hkept
    exact .inr ⟨by simpa using hkept, String.toList_ofList⟩

theorem sanitize_null (limit : Int) : sanitize limit .null = "null" := rfl

theorem sanitize_of_ne_null (limit : Int) {value : Json} (h : value ≠ .null) :
    sanitize limit value = sanitizeText limit value.display := by
  unfold sanitize
  split
  · exact absurd rfl h
  · rfl

/-- A character of a cleaned value is one that is kept, unless the placeholder is shown. -/
theorem isKept_of_mem_sanitize {limit : Int} {value : Json}
    (hshown : sanitize limit value ≠ "[sanitized]") {c : Char}
    (hc : c ∈ (sanitize limit value).toList) : IsKept c := by
  by_cases hnull : value = .null
  · subst hnull
    have hletters : Text.Throughout IsVisible "null".toList := by decide
    exact (hletters c hc).isKept
  · rw [sanitize_of_ne_null limit hnull] at hshown hc
    obtain ⟨_, hkept⟩ := (sanitizeText_cases limit value.display).resolve_left hshown
    rw [hkept] at hc
    exact isKept_of_mem_clean ((Text.trim_sublist _).subset hc)

/-! ## What is shown -/

/-- A text that a line can show as it is: something is in it, no blank at either end, and nothing
but visible characters, spaces and tabs. -/
structure IsTidy (text : String) : Prop where
  /-- There is something in it. -/
  nonempty : text ≠ ""
  /-- It does not begin with a blank. -/
  first : ∀ c ∈ text.toList.head?, Text.isBlank c = false
  /-- It does not end with a blank. -/
  last : ∀ c ∈ text.toList.getLast?, Text.isBlank c = false
  /-- It is made of visible characters, spaces and tabs. -/
  chars : ∀ c ∈ text.toList, IsVisible c ∨ c = ' ' ∨ c = '\t'

/-- **What is shown of a value**, up to a limit. -/
structure IsShown (limit : Nat) (value : Json) (shown : String) : Prop where
  /-- Something is shown. -/
  nonempty : shown ≠ ""
  /-- It does not begin with a blank. -/
  first : ∀ c ∈ shown.toList.head?, Text.isBlank c = false
  /-- It does not end with a blank. -/
  last : ∀ c ∈ shown.toList.getLast?, Text.isBlank c = false
  /-- It is not longer than a text that was cut, or else than the placeholder. -/
  length : shown.length ≤ max (limit + 3) 11
  /-- It is the placeholder, or made of visible characters and blanks. -/
  chars : shown = "[sanitized]" ∨ ∀ c ∈ shown.toList, IsVisible c ∨ Text.isBlank c
  /-- Null is shown by a word. -/
  null : value = .null → shown = "null"
  /-- Of any other value a part of its cut text is shown, or the placeholder. -/
  part : value ≠ .null →
    shown = "[sanitized]" ∨ shown.toList.Sublist (cutAfter limit value.display.toList)

theorem isShown_null (limit : Nat) : IsShown limit .null "null" where
  nonempty := by decide
  first := (Text.ends_of_solid (by decide)).1
  last := (Text.ends_of_solid (by decide)).2
  length := by
    show 4 ≤ _
    omega
  chars := .inr <|
    show Text.Throughout (fun c => IsVisible c ∨ Text.isBlank c) "null".toList by decide
  null _ := rfl
  part h := absurd rfl h

theorem isShown_placeholder (limit : Nat) {value : Json} (h : value ≠ .null) :
    IsShown limit value "[sanitized]" where
  nonempty := by decide
  first := (Text.ends_of_solid (by decide)).1
  last := (Text.ends_of_solid (by decide)).2
  length := by
    show 11 ≤ _
    omega
  chars := .inl rfl
  null hnull := absurd hnull h
  part _ := .inl rfl

theorem isShown_sanitize (limit : Nat) (value : Json) :
    IsShown limit value (sanitize limit value) := by
  by_cases hnull : value = .null
  · subst hnull
    exact isShown_null limit
  by_cases hplaceholder : sanitize limit value = "[sanitized]"
  · rw [hplaceholder]
    exact isShown_placeholder limit hnull
  · have htext := sanitize_of_ne_null limit hnull
    obtain ⟨hne, hkept⟩ :=
      (sanitizeText_cases limit value.display).resolve_left (htext ▸ hplaceholder)
    rw [← htext] at hkept
    -- the cleaning and the trimming only leave characters of the cut text out
    have hsub : (sanitize limit value).toList.Sublist (cutAfter limit value.display.toList) := by
      rw [hkept, ← shorten_eq_cutAfter]
      exact (Text.trim_sublist _).trans (clean_sublist _)
    exact {
      nonempty := by
        intro hempty
        rw [hempty] at hkept
        exact hne hkept.symm
      first := by
        rw [hkept]
        exact Text.first_trim
      last := by
        rw [hkept]
        exact Text.last_trim
      length := by
        have hle := hsub.length_le.trans (length_cutAfter_le limit _)
        rw [String.length_toList] at hle
        exact hle.trans (Nat.le_max_left _ _)
      chars := .inr fun c hc => (isKept_of_mem_sanitize hplaceholder hc).safe
      null := fun h => absurd h hnull
      part := fun _ => .inr hsub }

theorem IsTidy.isKept {text : String} (h : IsTidy text) : ∀ c ∈ text.toList, IsKept c := by
  intro c hc
  rcases h.chars c hc with hvisible | rfl | rfl
  · exact hvisible.isKept
  · exact .of_toNat (.inr (by decide)) (by decide) (by decide)
  · -- the tab is a control character, and the only one that is kept
    exact ⟨.inr (by decide), by decide, by decide⟩

theorem sanitize_of_isTidy {limit : Nat} {text : String} (hlength : text.length ≤ limit)
    (h : IsTidy text) : sanitize limit (.str text) = text := by
  have hsafe : safeChars limit text.toList = text.toList := by
    unfold safeChars
    rw [shorten_eq_cutAfter, cutAfter, if_pos (by rwa [String.length_toList])]
    exact clean_of_isKept h.isKept
  show sanitizeText limit text = text
  unfold sanitizeText
  dsimp only
  rw [hsafe, Text.trim_of_tidy h.first h.last, if_neg, String.ofList_toList]
  rw [List.isEmpty_iff, String.toList_eq_nil_iff]
  exact h.nonempty

end Log

end PluginRegistry
