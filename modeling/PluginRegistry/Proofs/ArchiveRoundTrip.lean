import PluginRegistry.Catalog.Archive
import Mathlib.Data.List.Basic

/-!
# Tables are read back from their files

What a run leaves in a database file is all that the next run knows, so the octets of a table have
to be read as this table. Each part is read from the front of its numbers, whatever comes after
them, and the numbers are read from the octets. A JSON value is read with as many levels as there
are numbers left, which are always enough.
-/

namespace PluginRegistry

namespace Archive

/-! ## Octets -/

theorem toNat_toUInt8 {n : Nat} (h : n < 256) : n.toUInt8.toNat = n := by
  rw [UInt8.toNat_ofNat']
  exact Nat.mod_eq_of_lt h

/-- The octets of a number are read as its multiple, on top of what was read before. -/
theorem numbersFrom?_octetsOf (n low scale : Nat) (rest : List UInt8) :
    numbersFrom? low scale (octetsOf n ++ rest) =
      (numbersFrom? 0 1 rest).map fun numbers => (low + scale * n) :: numbers := by
  induction n using Nat.strongRecOn generalizing low scale with
  | ind n ih =>
      unfold octetsOf
      split
      · rename_i hsmall
        have hoctet : n.toUInt8.toNat = n := toNat_toUInt8 (by omega)
        rw [List.singleton_append, numbersFrom?, hoctet, if_pos hsmall]
      · rename_i hlarge
        have hoctet : (n % 128 + 128).toUInt8.toNat = n % 128 + 128 := toNat_toUInt8 (by omega)
        rw [List.cons_append, numbersFrom?, hoctet, if_neg (by omega), ih (n / 128) (by omega)]
        -- the low digit and the rest make up the number
        have hdigits : low + scale * (n % 128 + 128 - 128) + scale * 128 * (n / 128) =
            low + scale * n := by
          rw [Nat.add_sub_cancel, Nat.add_assoc, Nat.mul_assoc, ← Nat.mul_add, Nat.mod_add_div]
        rw [hdigits]

theorem numbers?_octetsOf (numbers : List Nat) :
    numbers? (numbers.flatMap octetsOf) = some numbers := by
  unfold numbers?
  induction numbers with
  | nil => rfl
  | cons n rest ih =>
      rw [List.flatMap_cons, numbersFrom?_octetsOf, ih, Nat.zero_add, Nat.one_mul]
      rfl

/-! ## Parts -/

/-- The value is read from these numbers, whatever comes after them. -/
def Reads {α : Type} (read : Reader α) (value : α) (numbers : List Nat) : Prop :=
  ∀ rest, read (numbers ++ rest) = some (value, rest)

theorem reads_flag (b : Bool) : Reads flag? b [ofFlag b] := by
  intro rest
  cases b <;> rfl

theorem reads_number (n : Nat) : Reads number? n [n] := fun _ => rfl

theorem reads_int (n : Int) : Reads int? n (ofInt n) := by
  intro rest
  show (flag? (ofFlag (decide (n < 0)) :: n.natAbs :: rest)).bind _ = _
  rw [show flag? (ofFlag (decide (n < 0)) :: n.natAbs :: rest)
    = some (decide (n < 0), n.natAbs :: rest) from reads_flag _ _]
  show some ((if decide (n < 0) = true then -(n.natAbs : Int) else n.natAbs), rest) = _
  congr 2
  split
  · rename_i hneg
    have : n < 0 := of_decide_eq_true hneg
    omega
  · rename_i hpos
    have : ¬n < 0 := fun h => hpos (decide_eq_true h)
    omega

/-- Values that are read one by one are read one after the other. -/
theorem reads_many {α : Type} {read : Reader α} {write : α → List Nat} {values : List α}
    (h : ∀ a ∈ values, Reads read a (write a)) :
    Reads (many read values.length) values (values.flatMap write) := by
  intro rest
  induction values with
  | nil => rfl
  | cons a values ih =>
      obtain ⟨ha, hvalues⟩ := List.forall_mem_cons.mp h
      rw [List.flatMap_cons, List.append_assoc]
      show (read _).bind _ = _
      rw [ha]
      show (many read values.length _).bind _ = _
      rw [ih hvalues]
      rfl

theorem reads_text (s : String) : Reads text? s (ofText s) := by
  intro rest
  have hcodes : Reads (many number? (s.toList.map Char.toNat).length) (s.toList.map Char.toNat)
      ((s.toList.map Char.toNat).flatMap fun n => [n]) :=
    reads_many fun n _ => reads_number n
  rw [List.length_map, String.length_toList, List.flatMap_singleton'] at hcodes
  show (many number? s.length (s.toList.map Char.toNat ++ rest)).bind _ = _
  rw [hcodes]
  show some (String.ofList ((s.toList.map Char.toNat).map Char.ofNat), rest) = _
  have hchars : ∀ c ∈ s.toList, (Char.ofNat ∘ Char.toNat) c = c := fun c _ => Char.ofNat_toNat c
  rw [List.map_map, List.map_congr_left hchars, List.map_id'', String.ofList_toList]
  exact fun _ => rfl

theorem reads_maybeText (s : Option String) : Reads maybeText? s (ofText? s) := by
  intro rest
  cases s with
  | none => rfl
  | some s =>
      show (text? (ofText s ++ rest)).bind _ = _
      rw [reads_text]
      rfl

theorem reads_double (x : Binary64) :
    Reads double? x (ofFlag x.negative :: x.mantissa :: ofInt x.exponent) := by
  intro rest
  have hflag : flag? (ofFlag x.negative :: x.mantissa :: (ofInt x.exponent ++ rest)) =
      some (x.negative, x.mantissa :: (ofInt x.exponent ++ rest)) := reads_flag _ _
  show (flag? (ofFlag x.negative :: x.mantissa :: (ofInt x.exponent ++ rest))).bind _ = _
  rw [hflag]
  show (int? (ofInt x.exponent ++ rest)).bind _ = _
  rw [reads_int]
  show (Binary64.ofParts? x.negative x.mantissa x.exponent).bind _ = _
  unfold Binary64.ofParts?
  rw [dif_pos x.normal]
  rfl

theorem reads_time (c : CivilTime) : Reads time? c (ofTime c) := by
  intro rest
  have hdate : Date.ofParts? c.date.year c.date.month c.date.day = some c.date :=
    dif_pos c.date.onCalendar
  have htime : TimeOfDay.ofParts? c.time.hour c.time.minute c.time.second c.time.microsecond =
      some c.time := dif_pos c.time.inDay
  show (Date.ofParts? c.date.year c.date.month c.date.day).bind _ = _
  rw [hdate]
  show (TimeOfDay.ofParts? c.time.hour c.time.minute c.time.second c.time.microsecond).bind _ = _
  rw [htime]
  rfl

/-! ## JSON values -/

theorem length_ofJson_pos (value : Json) : 0 < (ofJson value).length := by
  unfold ofJson
  split <;> exact Nat.succ_pos _

mutual

/-- A value is read where it may have one more level than there are numbers after its kind. -/
theorem reads_json : ∀ (value : Json) (levels : Nat), (ofJson value).length ≤ levels + 1 →
    Reads (json? (levels + 1)) value (ofJson value)
  | .null, _, _ => fun _ => rfl
  | .bool b, _, _ => fun rest => congrArg (Option.map _) (reads_flag b rest)
  | .int n, _, _ => fun rest => congrArg (Option.map _) (reads_int n rest)
  | .float (.finite x), _, _ => fun rest => congrArg (Option.map _) (reads_double x rest)
  | .float (.infinite negative), _, _ => fun rest =>
      congrArg (Option.map _) (reads_flag negative rest)
  | .float .notANumber, _, _ => fun _ => rfl
  | .str s, _, _ => fun rest => congrArg (Option.map _) (reads_text s rest)
  | .arr items, levels, h => by
      intro rest
      rw [ofJson, List.length_cons, List.length_cons] at h
      show (many (json? levels) items.length (ofItems items ++ rest)).bind _ = _
      rw [reads_items items levels (by omega)]
      rfl
  | .obj members, levels, h => by
      intro rest
      rw [ofJson, List.length_cons, List.length_cons] at h
      show (many (member? (json? levels)) members.length (ofMembers members ++ rest)).bind _ = _
      rw [reads_members members levels (by omega)]
      rfl

theorem reads_items : ∀ (items : List Json) (levels : Nat), (ofItems items).length ≤ levels →
    Reads (many (json? levels) items.length) items (ofItems items)
  | [], _, _ => fun _ => rfl
  | x :: xs, levels, h => by
      intro rest
      rw [ofItems, List.length_append] at h
      obtain ⟨levels, rfl⟩ : ∃ l, levels = l + 1 :=
        Nat.exists_eq_add_one.mpr (by have := length_ofJson_pos x; omega)
      rw [ofItems, List.append_assoc]
      show (json? (levels + 1) _).bind _ = _
      rw [reads_json x levels (by omega)]
      show (many (json? (levels + 1)) xs.length _).bind _ = _
      rw [reads_items xs (levels + 1) (by omega)]
      rfl

theorem reads_members : ∀ (members : List (String × Json)) (levels : Nat),
    (ofMembers members).length ≤ levels →
    Reads (many (member? (json? levels)) members.length) members (ofMembers members)
  | [], _, _ => fun _ => rfl
  | (key, value) :: members, levels, h => by
      intro rest
      rw [ofMembers, List.length_append, List.length_append] at h
      obtain ⟨levels, rfl⟩ : ∃ l, levels = l + 1 :=
        Nat.exists_eq_add_one.mpr (by have := length_ofJson_pos value; omega)
      have hmember : Reads (member? (json? (levels + 1))) (key, value)
          (ofText key ++ ofJson value) := by
        intro rest
        rw [List.append_assoc]
        show (text? _).bind _ = _
        rw [reads_text]
        show (json? (levels + 1) _).bind _ = _
        rw [reads_json value levels (by omega)]
        rfl
      rw [ofMembers, ← List.append_assoc, List.append_assoc]
      show (member? (json? (levels + 1)) _).bind _ = _
      rw [hmember]
      show (many (member? (json? (levels + 1))) members.length _).bind _ = _
      rw [reads_members members (levels + 1) (by omega)]
      rfl

end

/-! ## Rows and tables -/

theorem reads_row (row : Row) : Reads row? row (ofRow row) := by
  intro rest
  obtain ⟨id, service, body, createdAt, lastModified⟩ := row
  unfold ofRow
  dsimp only
  simp only [List.append_assoc]
  show (text? _).bind _ = _
  rw [reads_text]
  show (maybeText? _).bind _ = _
  rw [reads_maybeText]
  -- as many levels as there are numbers left are enough
  generalize hleft : ofTime createdAt ++ (ofTime lastModified ++ rest) = left
  obtain ⟨levels, hlevels⟩ : ∃ l, (ofJson body ++ left).length = l + 1 := by
    refine Nat.exists_eq_add_one.mpr ?_
    rw [List.length_append]
    have := length_ofJson_pos body
    omega
  show (json? (ofJson body ++ left).length _).bind _ = _
  rw [hlevels, reads_json body levels (by rw [← hlevels, List.length_append]; omega), ← hleft]
  show (time? _).bind _ = _
  rw [reads_time]
  show (time? _).bind _ = _
  rw [reads_time]
  rfl

end Archive

open Archive

theorem Table.octets_ne_nil (t : Table) : t.octets ≠ [] := by
  intro hempty
  have hfirst : octetsOf heading.length = [] :=
    List.flatMap_eq_nil_iff.mp hempty _ List.mem_cons_self
  unfold octetsOf at hfirst
  split at hfirst
  · cases hfirst
  · cases hfirst

/-- **A table is read back from the file that holds it.** -/
theorem Table.ofOctets?_octets (t : Table) : ofOctets? t.octets = some t := by
  have hnumbers : ofNumbers? t.numbers = some t := by
    have hrows : Reads (many row? t.rows.length) t.rows (t.rows.flatMap ofRow) :=
      reads_many fun row _ => reads_row row
    unfold ofNumbers? numbers
    show (text? _).bind _ = _
    rw [reads_text]
    show (many row? t.rows.length (t.rows.flatMap ofRow)).bind _ = _
    rw [← List.append_nil (t.rows.flatMap ofRow), hrows]
    exact dif_pos ⟨rfl, rfl, t.ordered⟩
  unfold ofOctets?
  rw [if_neg (by simpa using octets_ne_nil t)]
  unfold octets
  rw [numbers?_octetsOf]
  exact hnumbers

end PluginRegistry
