import PluginRegistry.Text.Case

/-!
# Letters whose case is settled

A text that was put into a case is put into that case again when settings are read a second time. As
far as plain texts go that changes nothing: if the second mapping gives a plain text, it was that
text before. A character that is mapped to plain characters, and not to itself, is unsettled. There
are few such characters, and no mapping gives one. Both are read off the tables, one code point
after the other.
-/

namespace PluginRegistry.Text

/-- The character is one of ASCII. -/
def IsPlain (c : Char) : Prop := c.toNat < 128

instance : DecidablePred IsPlain := fun c => inferInstanceAs (Decidable (c.toNat < 128))

/-! ## What the tables map -/

variable {sequences : List (Nat × List Nat)} {runs : List CaseRun} {unsettled : List CodeRange}

/-- The code point that a run maps another one to. -/
def CaseRun.image (r : CaseRun) (n : Nat) : Nat := (Int.ofNat n + r.shift).toNat

/-- A code point is mapped between the ends of its run. -/
theorem CaseRun.image_between {r : CaseRun} {n : Nat} (h : r.holds n = true) :
    (r.first ≤ n ∧ n ≤ r.last) ∧ r.image r.first ≤ r.image n ∧ r.image n ≤ r.image r.last := by
  simp only [holds, Bool.and_eq_true, decide_eq_true_eq] at h
  obtain ⟨⟨hfirst, hlast⟩, _⟩ := h
  unfold image
  refine ⟨⟨hfirst, hlast⟩, ?_, ?_⟩
  · exact Int.toNat_le_toNat (Int.add_le_add_right (Int.ofNat_le.mpr hfirst) _)
  · exact Int.toNat_le_toNat (Int.add_le_add_right (Int.ofNat_le.mpr hlast) _)

/-- A character is mapped to its own sequence, by its run, or not at all. -/
theorem mapCase_cases (sequences : List (Nat × List Nat)) (runs : List CaseRun) (c : Char) :
    (∃ codes, (c.toNat, codes) ∈ sequences ∧
      mapCase sequences runs c = codes.map Char.ofNat) ∨
    (∃ r ∈ runs, r.holds c.toNat = true ∧
      mapCase sequences runs c = [Char.ofNat (r.image c.toNat)]) ∨
    (c.toNat ∉ sequences.map Prod.fst ∧ (∀ r ∈ runs, r.holds c.toNat = false) ∧
      mapCase sequences runs c = [c]) := by
  unfold mapCase
  split
  · rename_i codes hcodes
    obtain ⟨before, after, rfl, _⟩ := List.lookup_eq_some_iff.mp hcodes
    exact .inl ⟨codes, List.mem_append_right _ List.mem_cons_self, rfl⟩
  · rename_i hnone
    split
    · rename_i r hr
      exact .inr (.inl ⟨r, List.mem_of_find?_eq_some hr, by simpa using List.find?_some hr, rfl⟩)
    · rename_i hrun
      refine .inr (.inr ⟨fun hmem => ?_, fun r hr => ?_, rfl⟩)
      · obtain ⟨entry, hentry, hcode⟩ := List.mem_map.mp hmem
        have hne := List.lookup_eq_none_iff.mp hnone entry hentry
        rw [hcode, bne_self_eq_false] at hne
        cases hne
      · exact Bool.eq_false_iff.mpr (List.find?_eq_none.mp hrun r hr)

/-- A character stays as it is if the tables leave out the code points around it. -/
theorem mapCase_of_between {low high : Nat} {c : Char}
    (hsequences : ∀ entry ∈ sequences, entry.1 < low ∨ high < entry.1)
    (hruns : ∀ r ∈ runs, r.last < low ∨ high < r.first) (hc : low ≤ c.toNat ∧ c.toNat ≤ high) :
    mapCase sequences runs c = [c] := by
  rcases mapCase_cases sequences runs c with ⟨codes, hcodes, _⟩ | ⟨r, hr, hholds, _⟩ |
    ⟨_, _, heq⟩
  · have hout : c.toNat < low ∨ high < c.toNat := hsequences _ hcodes
    omega
  · obtain ⟨⟨hfirst, hlast⟩, _⟩ := CaseRun.image_between hholds
    rcases hruns r hr with h | h
    · omega
    · omega
  · exact heq

/-! ## Settled characters -/

/-- The run maps nothing to those code points. -/
def CaseRun.Avoids (r : CaseRun) (unsettled : List CodeRange) : Prop :=
  ∀ range ∈ unsettled, r.image r.last < range.1 ∨ range.2 < r.image r.first

/-- The run maps to characters only, none of which is plain. -/
def CaseRun.LeavesPlain (r : CaseRun) : Prop :=
  128 ≤ r.image r.first ∧
    (r.image r.last < 0xD800 ∨ 0xDFFF < r.image r.first ∧ r.image r.last < 0x110000)

instance (r : CaseRun) (unsettled : List CodeRange) : Decidable (r.Avoids unsettled) :=
  inferInstanceAs (Decidable (∀ range ∈ unsettled, _ ∨ _))

instance (r : CaseRun) : Decidable r.LeavesPlain :=
  inferInstanceAs (Decidable (_ ∧ _))

/-- The tables settle everything but those code points. -/
structure Settling (sequences : List (Nat × List Nat)) (runs : List CaseRun)
    (unsettled : List CodeRange) : Prop where
  /-- What is unsettled is mapped, by a run or by a sequence of its own. -/
  mapped : ∀ range ∈ unsettled,
    (∃ r ∈ runs, r.step = 1 ∧ r.first ≤ range.1 ∧ range.2 ≤ r.last) ∨
      range.1 = range.2 ∧ range.1 ∈ sequences.map Prod.fst
  /-- No sequence has anything unsettled. -/
  sequence : ∀ entry ∈ sequences, ∀ code ∈ entry.2,
    inRanges unsettled (Char.ofNat code).toNat = false
  /-- No run maps to anything unsettled, nor to what stands for no character. -/
  run : inRanges unsettled 0 = false ∧ ∀ r ∈ runs, r.Avoids unsettled
  /-- The sequence of what is settled is not plain. -/
  otherSequence : ∀ entry ∈ sequences,
    inRanges unsettled entry.1 = true ∨ ∃ code ∈ entry.2, ¬IsPlain (Char.ofNat code)
  /-- A run of what is settled maps to nothing plain. -/
  otherRun : ∀ r ∈ runs,
    (∃ range ∈ unsettled, range.1 ≤ r.first ∧ r.last ≤ range.2) ∨ r.LeavesPlain

/-- The character is settled. -/
def IsSettled (unsettled : List CodeRange) (c : Char) : Prop := inRanges unsettled c.toNat = false

instance (unsettled : List CodeRange) (c : Char) : Decidable (IsSettled unsettled c) :=
  inferInstanceAs (Decidable (_ = false))

theorem inRanges_eq_true {n : Nat} :
    inRanges unsettled n = true ↔ ∃ range ∈ unsettled, range.1 ≤ n ∧ n ≤ range.2 := by
  simp only [inRanges, List.any_eq_true, Bool.and_eq_true, decide_eq_true_eq]

/-- A number that stands for no character gives the character of number 0. -/
theorem toNat_ofNat_cases (n : Nat) :
    (Char.ofNat n).toNat = n ∨ ¬n.isValidChar ∧ (Char.ofNat n).toNat = 0 := by
  by_cases hvalid : n.isValidChar
  · exact .inl (congrArg Char.toNat (dif_pos hvalid))
  · exact .inr ⟨hvalid, congrArg Char.toNat (dif_neg hvalid)⟩

theorem CaseRun.isSettled_image {r : CaseRun} {n : Nat} (hr : r.Avoids unsettled)
    (hzero : inRanges unsettled 0 = false) (hn : r.holds n = true) :
    IsSettled unsettled (Char.ofNat (r.image n)) := by
  unfold IsSettled
  rcases toNat_ofNat_cases (r.image n) with hcode | ⟨_, hcode⟩
  · rw [hcode]
    obtain ⟨_, hlow, hhigh⟩ := image_between hn
    refine Bool.eq_false_iff.mpr fun hin => ?_
    obtain ⟨range, hrange, hfrom, hto⟩ := inRanges_eq_true.mp hin
    rcases hr range hrange with h | h
    · omega
    · omega
  · rw [hcode]
    exact hzero

theorem CaseRun.not_isPlain_image {r : CaseRun} {n : Nat} (hr : r.LeavesPlain)
    (hn : r.holds n = true) : ¬IsPlain (Char.ofNat (r.image n)) := by
  obtain ⟨_, hlow, hhigh⟩ := image_between hn
  obtain ⟨hplain, hvalid⟩ := hr
  have hchar : (r.image n).isValidChar := by
    unfold Nat.isValidChar
    omega
  unfold IsPlain
  rcases toNat_ofNat_cases (r.image n) with hcode | ⟨hnone, _⟩
  · omega
  · exact absurd hchar hnone

/-- **What was mapped is settled.** -/
theorem Settling.isSettled (h : Settling sequences runs unsettled) {c d : Char}
    (hd : d ∈ mapCase sequences runs c) : IsSettled unsettled d := by
  rcases mapCase_cases sequences runs c with ⟨codes, hcodes, heq⟩ | ⟨r, hr, hholds, heq⟩ |
    ⟨hsequence, hrun, heq⟩
  · rw [heq] at hd
    obtain ⟨code, hcode, rfl⟩ := List.mem_map.mp hd
    exact h.sequence _ hcodes code hcode
  · rw [heq] at hd
    cases List.mem_singleton.mp hd
    exact r.isSettled_image (h.run.2 r hr) h.run.1 hholds
  · rw [heq] at hd
    cases List.mem_singleton.mp hd
    refine Bool.eq_false_iff.mpr fun hin => ?_
    obtain ⟨range, hrange, hfrom, hto⟩ := inRanges_eq_true.mp hin
    rcases h.mapped range hrange with ⟨r, hr, hstep, hfirst, hlast⟩ | ⟨hsame, hmem⟩
    · have hholds : r.holds c.toNat = true := by
        have hlow : r.first ≤ c.toNat := Nat.le_trans hfirst hfrom
        have hhigh : c.toNat ≤ r.last := Nat.le_trans hto hlast
        simp [CaseRun.holds, hstep, hlow, hhigh, Nat.mod_one]
      exact absurd ((hrun r hr).symm.trans hholds) Bool.false_ne_true
    · have hcode : c.toNat = range.1 := by omega
      exact hsequence (hcode ▸ hmem)

/-- What is settled is mapped to plain characters only if it stays as it is. -/
theorem Settling.mapCase_eq_self (h : Settling sequences runs unsettled) {c : Char}
    (hc : IsSettled unsettled c) (hplain : ∀ d ∈ mapCase sequences runs c, IsPlain d) :
    mapCase sequences runs c = [c] := by
  rcases mapCase_cases sequences runs c with ⟨codes, hcodes, heq⟩ | ⟨r, hr, hholds, heq⟩ |
    ⟨_, _, heq⟩
  · rw [heq] at hplain
    rcases h.otherSequence _ hcodes with hin | ⟨code, hcode, hother⟩
    · exact absurd (hc.symm.trans hin) Bool.false_ne_true
    · exact absurd (hplain _ (List.mem_map_of_mem hcode)) hother
  · rw [heq] at hplain
    rcases h.otherRun r hr with ⟨range, hrange, hfirst, hlast⟩ | hother
    · obtain ⟨⟨hlow, hhigh⟩, _⟩ := CaseRun.image_between hholds
      have hin : inRanges unsettled c.toNat = true :=
        inRanges_eq_true.mpr ⟨range, hrange, Nat.le_trans hfirst hlow, Nat.le_trans hhigh hlast⟩
      exact absurd (hc.symm.trans hin) Bool.false_ne_true
    · exact absurd (hplain _ (List.mem_singleton_self _)) (r.not_isPlain_image hother hholds)
  · exact heq

/-! ## Upper case -/

/-- What upper case does not settle: the small letters, and a few more that become capital letters
of ASCII. -/
def unsettledByUpper : List CodeRange :=
  [(97, 122), (223, 223), (305, 305), (383, 383), (64256, 64256), (64257, 64257), (64258, 64258),
    (64259, 64259), (64260, 64260), (64261, 64261), (64262, 64262)]

theorem settling_upper : Settling upperSequences upperRuns unsettledByUpper where
  mapped := by decide +kernel
  sequence := by decide +kernel
  run := by decide +kernel
  otherSequence := by decide +kernel
  otherRun := by decide +kernel

theorem flatMap_mapCase_eq_self (h : Settling sequences runs unsettled) {cs : List Char}
    (hcs : ∀ c ∈ cs, IsSettled unsettled c)
    (hplain : ∀ d ∈ cs.flatMap (mapCase sequences runs), IsPlain d) :
    cs.flatMap (mapCase sequences runs) = cs := by
  induction cs with
  | nil => rfl
  | cons c rest ih =>
      obtain ⟨hc, hrest⟩ := List.forall_mem_cons.mp hcs
      rw [List.flatMap_cons] at hplain ⊢
      obtain ⟨hfirst, hlater⟩ := List.forall_mem_append.mp hplain
      rw [h.mapCase_eq_self hc hfirst, ih hrest hlater, List.singleton_append]

/-- **A plain text that comes out the second time came out the first time.** -/
theorem upper_upper_of_plain {text : String}
    (h : ∀ c ∈ (upper (upper text)).toList, IsPlain c) : upper (upper text) = upper text := by
  have hsettled : ∀ c ∈ (upper text).toList, IsSettled unsettledByUpper c := by
    intro c hc
    unfold upper at hc
    rw [String.toList_ofList] at hc
    obtain ⟨_, _, hc⟩ := List.mem_flatMap.mp hc
    exact Settling.isSettled settling_upper hc
  rw [upper, String.toList_ofList] at h
  rw [upper, flatMap_mapCase_eq_self settling_upper hsettled h, String.ofList_toList]

set_option maxRecDepth 4000 in
/-- Capital letters of ASCII stay as they are. -/
theorem upper_of_capitals {text : String}
    (h : ∀ c ∈ text.toList, 65 ≤ c.toNat ∧ c.toNat ≤ 90) : upper text = text := by
  have hsequences : ∀ entry ∈ upperSequences, entry.1 < 65 ∨ 90 < entry.1 := by decide
  have hruns : ∀ r ∈ upperRuns, r.last < 65 ∨ 90 < r.first := by decide
  have hcs : ∀ cs : List Char, (∀ c ∈ cs, 65 ≤ c.toNat ∧ c.toNat ≤ 90) →
      cs.flatMap (mapCase upperSequences upperRuns) = cs := by
    intro cs
    induction cs with
    | nil => exact fun _ => rfl
    | cons c rest ih =>
        intro hcs
        obtain ⟨hc, hrest⟩ := List.forall_mem_cons.mp hcs
        rw [List.flatMap_cons, mapCase_of_between hsequences hruns hc, ih hrest,
          List.singleton_append]
  rw [upper, hcs _ h, String.ofList_toList]

theorem upper_eq_empty {text : String} : upper text = "" ↔ text = "" := by
  have hsome : ∀ c, mapCase upperSequences upperRuns c ≠ [] := by
    intro c
    have hsequences : ∀ entry ∈ upperSequences, entry.2 ≠ [] := by decide
    rcases mapCase_cases upperSequences upperRuns c with ⟨codes, hcodes, heq⟩ | ⟨_, _, _, heq⟩ |
      ⟨_, _, heq⟩
    · rw [heq]
      exact fun hnil => hsequences _ hcodes (List.map_eq_nil_iff.mp hnil)
    · rw [heq]
      exact List.cons_ne_nil _ _
    · rw [heq]
      exact List.cons_ne_nil _ _
  refine ⟨fun h => ?_, fun h => by rw [h]; rfl⟩
  have hnil : text.toList.flatMap (mapCase upperSequences upperRuns) = [] := by
    have hlist := congrArg String.toList h
    rwa [upper, String.toList_ofList] at hlist
  cases hcs : text.toList with
  | nil => exact String.toList_eq_nil_iff.mp hcs
  | cons c rest =>
      rw [hcs, List.flatMap_cons, List.append_eq_nil_iff] at hnil
      exact absurd hnil.1 (hsome c)

/-! ## Lower case -/

/-- What lower case does not settle: the capital letters, and the sign for kelvin. -/
def unsettledByLower : List CodeRange := [(65, 90), (8490, 8490)]

theorem settling_lower : Settling lowerSequences lowerRuns unsettledByLower where
  mapped := by decide +kernel
  sequence := by decide +kernel
  run := by decide +kernel
  otherSequence := by decide +kernel
  otherRun := by decide +kernel

theorem isSettled_lowerChars {cs : List Char} {inWord : Bool} :
    ∀ d ∈ lowerChars inWord cs, IsSettled unsettledByLower d := by
  induction cs generalizing inWord with
  | nil => exact fun _ hd => by cases hd
  | cons c rest ih =>
      intro d hd
      unfold lowerChars at hd
      rcases List.mem_append.mp hd with hd | hd
      · split at hd
        · cases List.mem_singleton.mp hd
          have hfinal : IsSettled unsettledByLower 'ς' := by decide
          exact hfinal
        · exact Settling.isSettled settling_lower hd
      · exact ih d hd

theorem lowerChars_eq_self {cs : List Char} {inWord : Bool}
    (hcs : ∀ c ∈ cs, IsSettled unsettledByLower c)
    (hplain : ∀ d ∈ lowerChars inWord cs, IsPlain d) : lowerChars inWord cs = cs := by
  induction cs generalizing inWord with
  | nil => rfl
  | cons c rest ih =>
      obtain ⟨hc, hrest⟩ := List.forall_mem_cons.mp hcs
      unfold lowerChars at hplain ⊢
      obtain ⟨hfirst, hlater⟩ := List.forall_mem_append.mp hplain
      rw [ih hrest hlater]
      split at hfirst
      · -- the final form of a sigma is not plain
        have hfinal : ¬IsPlain 'ς' := by decide
        exact absurd (hfirst _ (List.mem_singleton_self _)) hfinal
      · rename_i hfinal
        dsimp only
        rw [if_neg hfinal, Settling.mapCase_eq_self settling_lower hc hfirst, List.singleton_append]

set_option maxRecDepth 4000 in
/-- Small letters of ASCII and the underscore stay as they are. -/
theorem lower_of_small {text : String}
    (h : ∀ c ∈ text.toList, 95 ≤ c.toNat ∧ c.toNat ≤ 122) : lower text = text := by
  have hsequences : ∀ entry ∈ lowerSequences, entry.1 < 95 ∨ 122 < entry.1 := by decide
  have hruns : ∀ r ∈ lowerRuns, r.last < 95 ∨ 122 < r.first := by decide
  have hcs : ∀ (cs : List Char) (inWord : Bool), (∀ c ∈ cs, 95 ≤ c.toNat ∧ c.toNat ≤ 122) →
      lowerChars inWord cs = cs := by
    intro cs
    induction cs with
    | nil => exact fun _ _ => rfl
    | cons c rest ih =>
        intro inWord hcs
        obtain ⟨hc, hrest⟩ := List.forall_mem_cons.mp hcs
        have hsigma : (c == 'Σ') = false := by
          rw [beq_eq_false_iff_ne]
          rintro rfl
          exact absurd hc.2 (by decide)
        unfold lowerChars
        rw [hsigma, ih _ hrest, mapCase_of_between hsequences hruns hc]
        rfl
  rw [lower, hcs _ _ h, String.ofList_toList]

/-- A text of characters that came out of lower case is its own lower case, if that is plain. -/
theorem lower_eq_self {text : String} (hcs : ∀ c ∈ text.toList, IsSettled unsettledByLower c)
    (hplain : ∀ c ∈ (lower text).toList, IsPlain c) : lower text = text := by
  unfold lower at hplain ⊢
  rw [String.toList_ofList] at hplain
  rw [lowerChars_eq_self hcs hplain, String.ofList_toList]

theorem isSettled_lower {text : String} :
    ∀ c ∈ (lower text).toList, IsSettled unsettledByLower c := by
  unfold lower
  rw [String.toList_ofList]
  exact isSettled_lowerChars

end PluginRegistry.Text
