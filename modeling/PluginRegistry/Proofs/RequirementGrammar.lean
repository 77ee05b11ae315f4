import PluginRegistry.Plugin.Release
import PluginRegistry.Proofs.TextPieces

/-!
# The grammar of requirements

A requirement is a name, the sign of a comparison and a version of three numbers, with or without
blanks between them. `Requirement.Spelling` is such a text together with its parts. The parser reads
runs of characters: a run ends in one way only, since no character of a name is blank, no sign can
be taken for another one before a version, and digits are neither blank nor points. So each
requirement is read from its spellings and from nothing else, and a text has one spelling at most. A
list that is put together from spelled requirements with commas and blanks gives these requirements,
in their order.
-/

namespace PluginRegistry

/-! ## Characters -/

namespace Text

/-- The runs of blank characters, in increasing order. -/
def blankRanges : List CodeRange :=
  [(9, 13), (28, 32), (133, 133), (160, 160), (5760, 5760), (8192, 8202), (8232, 8233),
   (8239, 8239), (8287, 8287), (12288, 12288)]

theorem isBlank_eq (c : Char) : isBlank c = inRanges blankRanges c.toNat := by
  unfold isBlank inRanges blankRanges
  rw [Bool.eq_iff_iff]
  simp only [List.any_cons, List.any_nil, Bool.or_eq_true, Bool.and_eq_true, decide_eq_true_eq,
    beq_iff_eq, Bool.or_false]
  omega

/-- No run of the one list meets a run of the other. -/
def apart (ranges others : List CodeRange) : Bool :=
  ranges.all fun r => others.all fun other => r.2 < other.1 || other.2 < r.1

/-- Runs that do not meet have no code point in common. -/
theorem inRanges_of_apart {ranges others : List CodeRange} {n : Nat} (hapart : apart ranges others)
    (h : inRanges ranges n) : inRanges others n = false := by
  unfold inRanges at h ⊢
  obtain ⟨r, hr, hn⟩ := List.any_eq_true.mp h
  rw [List.any_eq_false]
  intro other hother hothern
  have hdisjoint := List.all_eq_true.mp (List.all_eq_true.mp hapart r hr) other hother
  simp only [Bool.and_eq_true, Bool.or_eq_true, decide_eq_true_eq] at hn hothern hdisjoint
  omega

theorem not_isBlank_of_isWord {c : Char} (h : isWord c) : isBlank c = false := by
  rw [isBlank_eq]
  exact inRanges_of_apart (by decide +kernel) h

theorem not_isBlank_of_isDigit {c : Char} (h : isDigit c) : isBlank c = false := by
  rw [isBlank_eq]
  exact inRanges_of_apart (by decide) h

/-- Blanks, or nothing. -/
def Blanks : Type := { cs : List Char // ∀ c ∈ cs, isBlank c }

/-- No blank. -/
def Blanks.none : Blanks := ⟨[], nofun⟩

/-- One space. -/
def Blanks.space : Blanks := ⟨[' '], List.forall_mem_singleton.mpr (by decide)⟩

/-- The blanks at the start of a text. -/
def Blanks.leading (cs : List Char) : Blanks :=
  ⟨cs.takeWhile isBlank, fun _ hc => List.mem_takeWhile_imp hc⟩

end Text

namespace Comparison

/-- A sign is found at the start of a text. -/
theorem split?_eq_some {cs rest : List Char} {comparison : Comparison}
    (h : split? cs = some (comparison, rest)) : cs = comparison.chars ++ rest := by
  unfold split? at h
  split at h
  all_goals cases h
  all_goals rfl

/-- Before anything but an equality sign, each sign is found. -/
theorem split?_append (comparison : Comparison) {rest : List Char}
    (h : ∀ c ∈ rest.head?, c ≠ '=') : split? (comparison.chars ++ rest) = some (comparison, rest) := by
  cases comparison with
  | atLeast => rfl
  | atMost => rfl
  | above =>
      cases rest with
      | nil => rfl
      | cons c rest =>
          have hc : c ≠ '=' := h c rfl
          simp [chars, split?, hc]
  | below =>
      cases rest with
      | nil => rfl
      | cons c rest =>
          have hc : c ≠ '=' := h c rfl
          simp [chars, split?, hc]
  | equal => rfl

/-- A text that starts with a sign starts with a character of the sign. -/
theorem mem_of_head (comparison : Comparison) {rest : List Char} {c : Char}
    (hc : c ∈ (comparison.chars ++ rest).head?) : c ∈ comparison.chars := by
  have hfirst : (comparison.chars ++ rest).head? = comparison.chars.head? := by
    cases comparison <;> rfl
  rw [hfirst] at hc
  exact List.mem_of_mem_head? hc

end Comparison

namespace Requirement

theorem not_isBlank_of_isServiceChar {c : Char} (h : isServiceChar c) : Text.isBlank c = false := by
  unfold isServiceChar at h
  rw [Bool.or_eq_true, decide_eq_true_iff] at h
  rcases h with hword | rfl
  · exact Text.not_isBlank_of_isWord hword
  · decide

theorem not_isServiceChar_of_isBlank {c : Char} (h : Text.isBlank c) : isServiceChar c = false := by
  rw [Bool.eq_false_iff]
  intro hc
  rw [not_isBlank_of_isServiceChar hc] at h
  cases h

/-- A sign is neither part of a name nor blank, and no list is cut there. -/
theorem not_run_of_mem_chars {comparison : Comparison} {c : Char} (h : c ∈ comparison.chars) :
    isServiceChar c = false ∧ Text.isBlank c = false ∧ c ≠ ',' := by
  have hsign : c ∈ ['>', '<', '='] := by
    have hsubset : comparison.chars ⊆ ['>', '<', '='] := by cases comparison <;> simp [Comparison.chars]
    exact hsubset h
  simp only [List.mem_cons, List.not_mem_nil, or_false] at hsign
  rcases hsign with rfl | rfl | rfl
  all_goals decide +kernel

/-! ## Versions -/

/-- A number: digits, and at least one of them. -/
def IsNumber (cs : List Char) : Prop := cs ≠ [] ∧ ∀ c ∈ cs, Text.isDigit c

/-- Three numbers with points between them. -/
def IsVersion (cs : List Char) : Prop :=
  ∃ major minor patch, IsNumber major ∧ IsNumber minor ∧ IsNumber patch ∧
    cs = major ++ '.' :: (minor ++ '.' :: patch)

theorem IsNumber.point {cs : List Char} (h : IsNumber cs) : '.' ∉ cs :=
  fun hpoint => absurd (h.2 _ hpoint) (by decide)

theorem isVersion_iff {cs : List Char} : isVersion cs ↔ IsVersion cs := by
  constructor
  · intro h
    unfold isVersion at h
    split at h
    · rename_i major minor patch hpieces
      have hnumbers : ∀ number ∈ [major, minor, patch], IsNumber number := fun number hnumber =>
        Text.isRun_iff.mp (List.all_eq_true.mp h number hnumber)
      have hjoined := ((Text.splitAt_eq_iff (List.cons_ne_nil _ _)).mp hpieces).2
      exact ⟨major, minor, patch, hnumbers major (by simp), hnumbers minor (by simp),
        hnumbers patch (by simp), by simpa using hjoined⟩
    · cases h
  · rintro ⟨major, minor, patch, hmajor, hminor, hpatch, rfl⟩
    unfold isVersion
    rw [Text.splitAt_append _ hmajor.point, Text.splitAt_append _ hminor.point,
      Text.splitAt_of_notMem hpatch.point]
    refine List.all_eq_true.mpr fun number hnumber => Text.isRun_iff.mpr ?_
    simp only [List.mem_cons, List.not_mem_nil, or_false] at hnumber
    rcases hnumber with rfl | rfl | rfl
    · exact hmajor
    · exact hminor
    · exact hpatch

theorem IsVersion.forall_mem {cs : List Char} (h : IsVersion cs) :
    ∀ c ∈ cs, c = '.' ∨ Text.isDigit c := by
  obtain ⟨major, minor, patch, hmajor, hminor, hpatch, rfl⟩ := h
  intro c hc
  simp only [List.mem_append, List.mem_cons] at hc
  rcases hc with hc | hc | hc | hc | hc
  · exact .inr (hmajor.2 c hc)
  · exact .inl hc
  · exact .inr (hminor.2 c hc)
  · exact .inl hc
  · exact .inr (hpatch.2 c hc)

theorem IsVersion.notMem {cs : List Char} (h : IsVersion cs) {c : Char} (hpoint : c ≠ '.')
    (hdigit : Text.isDigit c = false) : c ∉ cs := by
  intro hmem
  rw [(h.forall_mem c hmem).resolve_left hpoint] at hdigit
  cases hdigit

theorem IsVersion.ne_nil {cs : List Char} (h : IsVersion cs) : cs ≠ [] := by
  obtain ⟨major, minor, patch, _, _, _, rfl⟩ := h
  simp

theorem IsVersion.not_isBlank {cs : List Char} (h : IsVersion cs) :
    ∀ c ∈ cs, Text.isBlank c = false := by
  intro c hc
  rcases h.forall_mem c hc with rfl | hdigit
  · decide
  · exact Text.not_isBlank_of_isDigit hdigit

/-! ## Spelled requirements -/

/-- **A requirement as it is spelled**, part by part. -/
@[ext]
structure Spelling where
  /-- The name of the service. -/
  service : List Char
  /-- The blanks before the sign. -/
  before : Text.Blanks
  /-- What the sign says. -/
  comparison : Comparison
  /-- The blanks after the sign. -/
  after : Text.Blanks
  /-- The version. -/
  version : List Char
  /-- The name is not empty. -/
  named : service ≠ []
  /-- It is made of the characters of names. -/
  word : ∀ c ∈ service, isServiceChar c
  /-- The version is three numbers. -/
  numbered : IsVersion version

namespace Spelling

/-- The text of a requirement. -/
def chars (s : Spelling) : List Char :=
  s.service ++ (s.before.val ++ (s.comparison.chars ++ (s.after.val ++ s.version)))

/-- The requirement that is spelled. -/
def requirement (s : Spelling) : Requirement :=
  ⟨String.ofList s.service, s.comparison, String.ofList s.version⟩

/-! The parts of the text are the runs that are read one after the other. -/

theorem service_run (s : Spelling) :
    s.chars.takeWhile isServiceChar = s.service ∧
      s.chars.dropWhile isServiceChar =
        s.before.val ++ (s.comparison.chars ++ (s.after.val ++ s.version)) := by
  refine Text.span_run s.word (Text.forall_head?_append ?_ ?_)
  · exact fun c hc => not_isServiceChar_of_isBlank (s.before.property c hc)
  · exact fun c hc => (not_run_of_mem_chars (s.comparison.mem_of_head hc)).1

theorem before_run (s : Spelling) :
    (s.before.val ++ (s.comparison.chars ++ (s.after.val ++ s.version))).takeWhile Text.isBlank
        = s.before.val ∧
      (s.before.val ++ (s.comparison.chars ++ (s.after.val ++ s.version))).dropWhile Text.isBlank
        = s.comparison.chars ++ (s.after.val ++ s.version) :=
  Text.span_run s.before.property fun _ hc =>
    (not_run_of_mem_chars (s.comparison.mem_of_head hc)).2.1

theorem sign_read (s : Spelling) :
    Comparison.split? (s.comparison.chars ++ (s.after.val ++ s.version)) =
      some (s.comparison, s.after.val ++ s.version) := by
  refine s.comparison.split?_append fun c hc => ?_
  rintro rfl
  rcases List.mem_append.mp (List.mem_of_mem_head? hc) with hblank | hversion
  · exact absurd (s.after.property _ hblank) (by decide)
  · exact s.numbered.notMem (by decide) (by decide) hversion

theorem after_run (s : Spelling) :
    (s.after.val ++ s.version).takeWhile Text.isBlank = s.after.val ∧
      (s.after.val ++ s.version).dropWhile Text.isBlank = s.version :=
  Text.span_run s.after.property fun c hc =>
    s.numbered.not_isBlank c (List.mem_of_mem_head? hc)

/-- **A text has one spelling at most.** -/
theorem chars_injective {s s' : Spelling} (h : s.chars = s'.chars) : s = s' := by
  have hservice : s.service = s'.service := by rw [← s.service_run.1, h, s'.service_run.1]
  have hrest := congrArg (List.dropWhile isServiceChar) h
  rw [s.service_run.2, s'.service_run.2] at hrest
  have hbefore : s.before.val = s'.before.val := by rw [← s.before_run.1, hrest, s'.before_run.1]
  have hsign := congrArg (List.dropWhile Text.isBlank) hrest
  rw [s.before_run.2, s'.before_run.2] at hsign
  have hread := congrArg Comparison.split? hsign
  rw [s.sign_read, s'.sign_read, Option.some_inj, Prod.mk.injEq] at hread
  obtain ⟨hcomparison, hlast⟩ := hread
  have hafter : s.after.val = s'.after.val := by rw [← s.after_run.1, hlast, s'.after_run.1]
  have hversion : s.version = s'.version := by rw [← s.after_run.2, hlast, s'.after_run.2]
  exact Spelling.ext hservice (Subtype.ext hbefore) hcomparison (Subtype.ext hafter) hversion

end Spelling

/-- **What is read is what is spelled.** -/
theorem ofChars?_eq_some {cs : List Char} {r : Requirement} :
    ofChars? cs = some r ↔ ∃ s : Spelling, s.chars = cs ∧ s.requirement = r := by
  unfold ofChars?
  constructor
  · intro h
    dsimp only at h
    cases hsign : Comparison.split? ((cs.dropWhile isServiceChar).dropWhile Text.isBlank) with
    | none =>
        rw [hsign] at h
        cases h
    | some read =>
        obtain ⟨comparison, rest⟩ := read
        rw [hsign, Option.bind_eq_bind, Option.bind_some] at h
        dsimp only at h
        split at h
        · rename_i hparts
          rw [Bool.and_eq_true, Bool.not_eq_true', List.isEmpty_eq_false_iff, isVersion_iff]
            at hparts
          cases h
          refine ⟨⟨cs.takeWhile isServiceChar, .leading (cs.dropWhile isServiceChar), comparison,
            .leading rest, rest.dropWhile Text.isBlank, hparts.1,
            fun c hc => List.mem_takeWhile_imp hc, hparts.2⟩, ?_, rfl⟩
          -- the runs make up the text again
          unfold Spelling.chars Text.Blanks.leading
          dsimp only
          rw [List.takeWhile_append_dropWhile, ← Comparison.split?_eq_some hsign,
            List.takeWhile_append_dropWhile, List.takeWhile_append_dropWhile]
        · cases h
  · rintro ⟨s, rfl, rfl⟩
    dsimp only
    rw [s.service_run.1, s.service_run.2, s.before_run.2, s.sign_read, Option.bind_eq_bind,
      Option.bind_some]
    dsimp only
    have hparts : !s.service.isEmpty && isVersion s.version := by
      rw [Bool.and_eq_true, Bool.not_eq_true', List.isEmpty_eq_false_iff, isVersion_iff]
      exact ⟨s.named, s.numbered⟩
    rw [s.after_run.2, if_pos hparts]
    rfl

/-! ## Lists of requirements -/

theorem parse?_trimmed (entry : String) : parse? (Text.trimmed entry) = parse? entry := by
  unfold parse? Text.trimmed
  rw [String.toList_ofList, Text.trim_trim]

/-- Leaving the blank entries out leaves no requirement out. -/
theorem filterMap_entries (list : String) :
    (entries list).filterMap parse? = (Text.split ',' list).filterMap parse? := by
  unfold entries
  rw [List.filterMap_filter, List.filterMap_map]
  refine List.filterMap_congr fun entry _ => ?_
  rw [Function.comp_apply, ← parse?_trimmed entry]
  split
  · rfl
  · rename_i hblank
    rw [decide_eq_true_iff, not_not] at hblank
    rw [hblank]
    rfl

/-- The requirements of a list are read from its pieces, one by one. -/
theorem requirements_of_pieces {pieces : List (List Char)} (hplain : ∀ piece ∈ pieces, ',' ∉ piece)
    {r : Release} (hr : r.requires = some (String.ofList ([','].intercalate pieces))) :
    r.requirements = pieces.filterMap fun piece => parse? (String.ofList piece) := by
  unfold Release.requirements Release.requirementEntries
  rw [hr]
  dsimp only
  rw [filterMap_entries]
  unfold Text.split
  rw [String.toList_ofList]
  cases pieces with
  | nil => rfl
  | cons piece rest =>
      rw [Text.splitAt_intercalate (List.cons_ne_nil _ _) hplain, List.filterMap_map]
      rfl

/-- What stands between two commas of a list: nothing but blanks, or a requirement. -/
inductive Piece where
  | blank (blanks : Text.Blanks)
  | spelled (lead : Text.Blanks) (s : Spelling) (trail : Text.Blanks)

namespace Piece

/-- The text of a piece. -/
def chars : Piece → List Char
  | .blank blanks => blanks.val
  | .spelled lead s trail => lead.val ++ (s.chars ++ trail.val)

/-- The requirement in a piece, if there is one. -/
def requirement? : Piece → Option Requirement
  | .blank _ => none
  | .spelled _ s _ => some s.requirement

/-- The list that is made of pieces. -/
def joined (pieces : List Piece) : String := String.ofList ([','].intercalate (pieces.map chars))

theorem plain (piece : Piece) : ',' ∉ piece.chars := by
  have hblanks : ∀ blanks : Text.Blanks, ',' ∉ blanks.val := fun blanks hmem =>
    absurd (blanks.property _ hmem) (by decide)
  cases piece with
  | blank blanks => exact hblanks blanks
  | spelled lead s trail =>
      simp only [chars, Spelling.chars, List.mem_append, not_or]
      refine ⟨hblanks lead, ⟨?_, hblanks s.before, ?_, hblanks s.after, ?_⟩, hblanks trail⟩
      · exact fun hmem => absurd (s.word _ hmem) (by decide +kernel)
      · exact fun hmem => (not_run_of_mem_chars hmem).2.2 rfl
      · exact s.numbered.notMem (by decide) (by decide)

/-- Around a requirement there are no blanks but those that were put there. -/
theorem trim_chars (lead : Text.Blanks) (s : Spelling) (trail : Text.Blanks) :
    Text.trim (lead.val ++ (s.chars ++ trail.val)) = s.chars := by
  refine Text.trim_between lead.property trail.property ?_ ?_
  · obtain ⟨first, more, hservice⟩ := List.exists_cons_of_ne_nil s.named
    intro c hc
    have hfirst : c ∈ s.service := by
      unfold Spelling.chars at hc
      rw [hservice] at hc ⊢
      rw [List.cons_append, List.head?_cons, Option.mem_some] at hc
      exact hc ▸ List.mem_cons_self
    exact not_isBlank_of_isServiceChar (s.word c hfirst)
  · intro c hc
    have hlast : c ∈ s.version := by
      unfold Spelling.chars at hc
      simp only [← List.append_assoc] at hc
      rw [List.getLast?_append_of_ne_nil _ s.numbered.ne_nil] at hc
      exact List.mem_of_getLast? hc
    exact s.numbered.not_isBlank c hlast

theorem parse?_chars (piece : Piece) :
    parse? (String.ofList piece.chars) = piece.requirement? := by
  unfold parse?
  rw [String.toList_ofList]
  cases piece with
  | blank blanks =>
      have hnothing : Text.trim (blanks.val ++ ([] ++ [])) = [] :=
        Text.trim_between blanks.property nofun nofun nofun
      rw [List.append_nil, List.append_nil] at hnothing
      unfold chars
      rw [hnothing]
      rfl
  | spelled lead s trail =>
      unfold chars
      dsimp only
      rw [trim_chars]
      exact ofChars?_eq_some.mpr ⟨s, rfl, rfl⟩

end Piece

/-- **The parser reads the grammar.** An entry is read if and only if without the blanks around it
it spells a requirement, which it does in one way at most, and a list of spelled requirements with
blanks and commas between them is read as these requirements. -/
theorem parse_spelled :
    (∀ (entry : String) (r : Requirement), parse? entry = some r ↔
      ∃ s : Spelling, s.chars = Text.trim entry.toList ∧ s.requirement = r) ∧
    (∀ s s' : Spelling, s.chars = s'.chars → s = s') ∧
    ∀ (pieces : List Piece) (r : Release), r.requires = some (Piece.joined pieces) →
      r.requirements = pieces.filterMap Piece.requirement? := by
  refine ⟨fun entry r => ofChars?_eq_some, fun s s' => Spelling.chars_injective, ?_⟩
  intro pieces r hr
  have hplain : ∀ piece ∈ pieces.map Piece.chars, ',' ∉ piece := by
    intro cs hcs
    obtain ⟨piece, _, rfl⟩ := List.mem_map.mp hcs
    exact piece.plain
  rw [requirements_of_pieces hplain hr, List.filterMap_map]
  exact List.filterMap_congr fun piece _ => piece.parse?_chars

/-- A requirement with a blank on either side of its sign. -/
def spaced : Spelling where
  service := "orca".toList
  before := .space
  comparison := .atLeast
  after := .space
  version := "7.0.0".toList
  named := by decide
  word := List.all_eq_true.mp (by decide)
  numbered := isVersion_iff.mp (by decide)

/-- A requirement without blanks, in letters and digits of other scripts. -/
def foreign : Spelling where
  service := "ключ-1".toList
  before := .none
  comparison := .equal
  after := .none
  version := "٣.0.1".toList
  named := by decide
  word := List.all_eq_true.mp (by decide +kernel)
  numbered := isVersion_iff.mp (by decide)

/-- A release that requires both. -/
def requiring : Release where
  version := "1.0.0"
  date := none
  requires := some "orca >= 7.0.0, , ключ-1=٣.0.1"
  url := none
  sha512sum := none
  releaseNotes := none
  preferred := false
  preferredAs := none
  lastModified := none
  lastModifiedBy := none
  extras := []

/-- Both requirements are read, and the blank entry between them is none. -/
theorem parse_spelled_requiring :
    parse? "\norca >= 7.0.0 " = some ⟨"orca", .atLeast, "7.0.0"⟩ ∧
    requiring.requirements = [⟨"orca", .atLeast, "7.0.0"⟩, ⟨"ключ-1", .equal, "٣.0.1"⟩] := by
  refine ⟨(parse_spelled.1 _ _).mpr ⟨spaced, by decide, by decide⟩, ?_⟩
  have hlist := parse_spelled.2.2 [.spelled .none spaced .none, .blank .space,
    .spelled .space foreign .none] requiring (by decide)
  rw [hlist]
  decide

end Requirement

end PluginRegistry
