import PluginRegistry.Proofs.TextPieces
import PluginRegistry.Time.Reading
import Mathlib.Algebra.Group.Nat.Defs
import Mathlib.Data.List.Basic

/-!
# Moments read back as they are written

A stored release bears the moment of its last change as a text, and every rewrite of a record reads
that text and writes it again. So the text of a moment has to be read as the moment itself: the date
by its ten characters, the time of day with or without a fraction, and the zone as none, `Z` or an
offset.
-/

namespace PluginRegistry

/-- The characters of the zone at the end of a moment. -/
def Moment.zoneChars : Option Offset → List Char
  | none => []
  | some o => if o.minutes = 0 then ['Z'] else o.chars

theorem Moment.chars_eq (m : Moment) : m.chars = m.civil.chars ++ zoneChars m.offset := by
  unfold Moment.chars zoneChars
  cases m.offset <;> rfl

namespace Reading

/-! ## Digits -/

theorem digit?_of_isDigit {c : Char} (h : c.isDigit) : digit? c = some (c.toNat - '0'.toNat) :=
  if_pos (Char.isDigit_iff_toNat.mp h)

theorem number?_of_isDigit {cs : List Char} (h : ∀ c ∈ cs, c.isDigit) :
    number? cs = some (Nat.ofDigitChars 10 cs 0) := by
  rw [Nat.ofDigitChars_eq_foldl]
  unfold number?
  generalize 0 = n
  induction cs generalizing n with
  | nil => rfl
  | cons c cs ih =>
      rw [List.foldl_cons, List.foldl_cons]
      simp only [digit?_of_isDigit (h c List.mem_cons_self)]
      exact ih (fun x hx => h x (List.mem_cons_of_mem _ hx)) _

theorem isDigit_of_mem_padded {width n : Nat} {c : Char} (h : c ∈ padded width n) : c.isDigit := by
  unfold padded at h
  rcases List.mem_append.mp h with h | h
  · rw [List.eq_of_mem_replicate h]; rfl
  · exact Nat.isDigit_of_mem_toDigits (by decide) (by decide) h

/-- Padding adds zeros in front, which do not count. -/
theorem number?_padded (width n : Nat) : number? (padded width n) = some n := by
  rw [number?_of_isDigit (fun c hc => isDigit_of_mem_padded hc)]
  unfold padded
  rw [Nat.ofDigitChars_append, Nat.ofDigitChars_replicate_zero, Nat.mul_zero,
    Nat.ofDigitChars_ten_toDigits]

theorem length_padded {width n : Nat} (hw : 0 < width) (h : n < 10 ^ width) :
    (padded width n).length = width := by
  have hle := (Nat.length_toDigits_le_iff (by decide : 1 < 10) hw).mpr h
  unfold padded
  rw [List.length_append, List.length_replicate]
  omega

theorem padded_two {n : Nat} (h : n < 100) : ∃ a b, padded 2 n = [a, b] :=
  List.length_eq_two.mp (length_padded (by decide) h)

theorem padded_four {n : Nat} (h : n < 10000) : ∃ a b c d, padded 4 n = [a, b, c, d] := by
  have hl : (padded 4 n).length = 4 := length_padded (by decide) h
  match hp : padded 4 n, hl with
  | [a, b, c, d], _ => exact ⟨a, b, c, d, rfl⟩

/-! ## Dates -/

theorem daysInMonth_le (year month : Nat) : daysInMonth year month ≤ 31 := by
  unfold daysInMonth
  split <;> try split
  all_goals omega

theorem month_of_daysInMonth_pos {year month : Nat} (h : 1 ≤ daysInMonth year month) :
    1 ≤ month ∧ month ≤ 12 := by
  unfold daysInMonth at h
  split at h <;> omega

theorem dateOf_self (d : Date) : dateOf (d.year, d.month, d.day) = .ok d := by
  have h : Date.ofParts? d.year d.month d.day = some d := dif_pos d.onCalendar
  unfold dateOf
  rw [h]
  rfl

theorem dateParts_chars (d : Date) (rest : List Char) :
    dateParts (d.chars ++ rest) = .ok ((d.year, d.month, d.day), rest) := by
  obtain ⟨h1, h2, h3, h4⟩ := d.onCalendar
  have hd := daysInMonth_le d.year d.month
  have hm := month_of_daysInMonth_pos (Nat.le_trans h3 h4)
  obtain ⟨y₁, y₂, y₃, y₄, ey⟩ := padded_four (n := d.year) (by omega)
  obtain ⟨m₁, m₂, em⟩ := padded_two (n := d.month) (by omega)
  obtain ⟨d₁, d₂, ed⟩ := padded_two (n := d.day) (by omega)
  have ny := number?_padded 4 d.year
  have nm := number?_padded 2 d.month
  have nd := number?_padded 2 d.day
  rw [ey] at ny
  rw [em] at nm
  rw [ed] at nd
  have hc : d.chars ++ rest
      = y₁ :: y₂ :: y₃ :: y₄ :: '-' :: m₁ :: m₂ :: '-' :: d₁ :: d₂ :: rest := by
    simp [Date.chars, ey, em, ed]
  have hmonth : ¬(d.month < 1 ∨ 12 < d.month) := by omega
  have hday : ¬(d.day < 1 ∨ daysInMonth d.year d.month < d.day) := by omega
  rw [hc, dateParts, ny, nm, nd]
  simp only [ne_eq, not_true_eq_false, if_false, if_neg hmonth, if_neg hday]
  rfl

/-! ## Times of day -/

/-- Six digits are all the digits that a fraction has. -/
theorem microseconds?_padded {n : Nat} (h : n < 1000000) :
    microseconds? (padded 6 n) = some n := by
  have hl : (padded 6 n).length = 6 := length_padded (by decide) h
  have hne : (padded 6 n).isEmpty = false := by
    cases hp : padded 6 n with
    | nil => rw [hp] at hl; cases hl
    | cons _ _ => rfl
  unfold microseconds?
  rw [hne, List.take_append_of_le_length (by omega), List.take_of_length_le (by omega)]
  exact number?_padded 6 n

/-- What may follow a time of day without being taken for a part of it. -/
def EndsTime (rest : List Char) : Prop :=
  ∀ c ∈ rest.head?, c.isDigit = false ∧ c ≠ '.' ∧ c ≠ ',' ∧ c ≠ ':'

theorem timeOfDay?_chars (t : TimeOfDay) {rest : List Char} (hr : EndsTime rest) :
    timeOfDay? (t.chars ++ rest) = some (t, rest) := by
  obtain ⟨hh, hm, hs, hu⟩ := t.inDay
  obtain ⟨h₁, h₂, eh⟩ := padded_two (n := t.hour) (by omega)
  obtain ⟨m₁, m₂, em⟩ := padded_two (n := t.minute) (by omega)
  obtain ⟨s₁, s₂, es⟩ := padded_two (n := t.second) (by omega)
  have nh := number?_padded 2 t.hour
  have nm := number?_padded 2 t.minute
  have ns := number?_padded 2 t.second
  rw [eh] at nh
  rw [em] at nm
  rw [es] at ns
  have ht : TimeOfDay.ofParts? t.hour t.minute t.second t.microsecond = some t := dif_pos t.inDay
  by_cases h0 : t.microsecond = 0
  · -- without a fraction: what follows must not look like one
    rw [h0] at ht
    have hc : t.chars ++ rest = h₁ :: h₂ :: ':' :: m₁ :: m₂ :: ':' :: s₁ :: s₂ :: rest := by
      simp [TimeOfDay.chars, eh, em, es, h0]
    rw [hc]
    cases rest with
    | nil => simp [timeOfDay?, nh, nm, ns, ht]
    | cons c rest =>
        obtain ⟨_, c1, c2, _⟩ := hr c rfl
        simp [timeOfDay?, nh, nm, ns, ht, c1, c2]
  · -- with a fraction: it ends before what follows, which does not start with a digit
    have hc : t.chars ++ rest
        = h₁ :: h₂ :: ':' :: m₁ :: m₂ :: ':' :: s₁ :: s₂ :: '.' ::
          (padded 6 t.microsecond ++ rest) := by
      simp [TimeOfDay.chars, eh, em, es, h0]
    have hd : ∀ c ∈ padded 6 t.microsecond, c.isDigit := fun c hc => isDigit_of_mem_padded hc
    obtain ⟨ht1, ht2⟩ := Text.span_run hd (fun c hc => (hr c hc).1)
    rw [hc]
    simp [timeOfDay?, nh, nm, ns, ht1, ht2, microseconds?_padded hu, ht]

/-! ## Zones -/

theorem offsetMinutes?_padded {n : Nat} (h : n < 1440) :
    offsetMinutes? (padded 2 (n / 60) ++ ':' :: padded 2 (n % 60)) = some n := by
  obtain ⟨h₁, h₂, eh⟩ := padded_two (n := n / 60) (by omega)
  obtain ⟨m₁, m₂, em⟩ := padded_two (n := n % 60) (by omega)
  have nh := number?_padded 2 (n / 60)
  have nm := number?_padded 2 (n % 60)
  rw [eh] at nh
  rw [em] at nm
  have hlt : n % 60 < 60 := Nat.mod_lt _ (by decide)
  have hsum : 60 * (n / 60) + n % 60 = n := Nat.div_add_mod n 60
  rw [eh, em]
  simp [offsetMinutes?, nh, nm, hlt, hsum]

theorem zone?_chars (o : Option Offset) : zone? (Moment.zoneChars o) = some o := by
  cases o with
  | none => rfl
  | some o =>
      dsimp only [Moment.zoneChars]
      by_cases h0 : o.minutes = 0
      · have hz : o = .zero := by
          cases o
          simp only [Offset.zero, Offset.mk.injEq]
          exact h0
        rw [if_pos h0, hz]
        rfl
      · have hn : o.minutes.natAbs < 1440 := by have := o.withinDay; omega
        have hm := offsetMinutes?_padded hn
        have hs : Offset.ofMinutes? o.minutes = some o := dif_pos o.withinDay
        rw [if_neg h0]
        unfold Offset.chars
        by_cases hneg : o.minutes < 0
        · -- the sign is written apart from the minutes
          have hminutes : -(o.minutes.natAbs : Int) = o.minutes := by omega
          rw [← hminutes] at hs
          rw [if_pos hneg, List.cons_append]
          simp only [zone?, hm, Option.bind_eq_bind, Option.bind_some, hs]
          rfl
        · have hminutes : (o.minutes.natAbs : Int) = o.minutes := by omega
          rw [← hminutes] at hs
          rw [if_neg hneg, List.cons_append]
          simp only [zone?, hm, Option.bind_eq_bind, Option.bind_some, hs]
          rfl

theorem endsTime_zoneChars (o : Option Offset) : EndsTime (Moment.zoneChars o) := by
  intro c hc
  cases o with
  | none => cases hc
  | some o =>
      dsimp only [Moment.zoneChars, Offset.chars] at hc
      by_cases h0 : o.minutes = 0
      · rw [if_pos h0] at hc; cases hc; decide
      · rw [if_neg h0] at hc
        by_cases hneg : o.minutes < 0
        · rw [if_pos hneg] at hc; cases hc; decide
        · rw [if_neg hneg] at hc; cases hc; decide

/-! ## Moments -/

theorem momentParts?_chars (m : Moment) :
    momentParts? m.chars
      = some ((m.civil.date.year, m.civil.date.month, m.civil.date.day), m.civil.time,
          m.offset) := by
  have hc : m.chars
      = m.civil.date.chars ++ 'T' :: (m.civil.time.chars ++ Moment.zoneChars m.offset) := by
    rw [Moment.chars_eq, CivilTime.chars, List.append_assoc, List.cons_append]
  unfold momentParts?
  rw [hc, dateParts_chars]
  simp [timeOfDay?_chars _ (endsTime_zoneChars m.offset), zone?_chars]

/-- The text consists of characters that are one octet each. -/
def IsAscii (cs : List Char) : Prop := ∀ c ∈ cs, c.toNat < 0x80

theorem isAscii_append {a b : List Char} : IsAscii (a ++ b) ↔ IsAscii a ∧ IsAscii b :=
  List.forall_mem_append

theorem isAscii_cons {c : Char} {cs : List Char} :
    IsAscii (c :: cs) ↔ c.toNat < 0x80 ∧ IsAscii cs :=
  List.forall_mem_cons

theorem isAscii_nil : IsAscii [] := by intro c hc; cases hc

theorem isAscii_padded (width n : Nat) : IsAscii (padded width n) := by
  intro c hc
  have hd := (Char.isDigit_iff_toNat.mp (isDigit_of_mem_padded hc)).2
  exact Nat.lt_of_le_of_lt hd (by decide)

theorem isAscii_zoneChars (o : Option Offset) : IsAscii (Moment.zoneChars o) := by
  cases o with
  | none => exact isAscii_nil
  | some o =>
      dsimp only [Moment.zoneChars, Offset.chars]
      split
      · exact isAscii_cons.mpr ⟨by decide, isAscii_nil⟩
      · have hsign : (if o.minutes < 0 then '-' else '+').toNat < 0x80 := by split <;> decide
        have hcolon : ':'.toNat < 0x80 := by decide
        simp only [isAscii_append, isAscii_cons, isAscii_padded, hsign, hcolon, and_self]

theorem isAscii_chars (m : Moment) : IsAscii m.chars := by
  have hfraction : IsAscii (if m.civil.time.microsecond = 0 then []
      else '.' :: padded 6 m.civil.time.microsecond) := by
    split
    · exact isAscii_nil
    · exact isAscii_cons.mpr ⟨by decide, isAscii_padded _ _⟩
  have hmarks : '-'.toNat < 0x80 ∧ 'T'.toNat < 0x80 ∧ ':'.toNat < 0x80 := by decide
  rw [Moment.chars_eq, CivilTime.chars, Date.chars, TimeOfDay.chars]
  simp only [isAscii_append, isAscii_cons, isAscii_padded, isAscii_zoneChars, hfraction, hmarks,
    and_self]

theorem octets_ofList {cs : List Char} (h : IsAscii cs) : octets (String.ofList cs) = cs := by
  unfold octets
  rw [String.toList_ofList]
  induction cs with
  | nil => rfl
  | cons c cs ih =>
      obtain ⟨h1, h2⟩ := isAscii_cons.mp h
      have hc : octetsOf c = [c] := if_pos h1
      rw [List.flatMap_cons, hc, ih h2]
      rfl

/-- **The text of a moment is read as that moment.** -/
theorem momentOfText_text (m : Moment) : momentOfText m.text = .ok m := by
  unfold momentOfText Moment.text
  rw [octets_ofList (isAscii_chars m)]
  simp only [momentParts?_chars, dateOf_self]
  rfl

end Reading

end PluginRegistry
