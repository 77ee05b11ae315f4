import PluginRegistry.Proofs.LogLines

/-!
# Reading audit entries

Whoever reads the log has nothing of an audit entry but its line, and the values in it come from
callers. They may have blanks in them and words that are names of fields, so the blanks of the line
do not tell where a field ends. The equals signs do. Cleaning leaves none, and neither the
placeholders nor the words for a flag have one, so each equals sign of the line stands behind the
name of a field. What stands between two of them is the value of one field and, behind its last
space, the name of the next one.

`readAudit` takes a line apart in this way. It gives the fields of the entry back, with the values
that were written, so no caller can make a line show a field more or less, or the value of one field
as that of another; and two entries that have the same line tell the same.
-/

namespace PluginRegistry.Log

/-! ## Fields on a line -/

/-- What stands before the last space of a text. -/
def beforeLastSpace (cs : List Char) : List Char := (cs.rdropWhile (· ≠ ' ')).dropLast

/-- What stands behind it. -/
def afterLastSpace (cs : List Char) : List Char := cs.rtakeWhile (· ≠ ' ')

/-- The fields that are left, with the name of the first one. Each piece but the last is the value
of a field and the name of the next one. -/
def fieldsFrom (name : List Char) : List (List Char) → List (List Char × List Char)
  | [] => []
  | [value] => [(name, value)]
  | piece :: next :: pieces =>
    (name, beforeLastSpace piece) :: fieldsFrom (afterLastSpace piece) (next :: pieces)

/-- The fields of a line, read from between its equals signs. -/
def readFields (cs : List Char) : List (List Char × List Char) :=
  match Text.splitAt '=' cs with
  | [] => []
  | name :: pieces => fieldsFrom name pieces

/-- A field as it is written. -/
def writeField (field : List Char × List Char) : List Char := field.1 ++ '=' :: field.2

/-- Fields with a space between them. -/
def joinFields (fields : List (List Char × List Char)) : List Char :=
  [' '].intercalate (fields.map writeField)

/-- A field that can be told from others. -/
structure IsLegible (field : List Char × List Char) : Prop where
  /-- The name has no equals sign and is one word. -/
  name : '=' ∉ field.1 ∧ ' ' ∉ field.1
  /-- The value has no equals sign. -/
  value : '=' ∉ field.2

/-- A value is told from the name behind it. -/
theorem lastSpace_append {value name : List Char} (h : ' ' ∉ name) :
    beforeLastSpace (value ++ ' ' :: name) = value ∧
      afterLastSpace (value ++ ' ' :: name) = name := by
  have hword : ∀ c ∈ name.reverse, decide (c ≠ ' ') := by
    intro c hc
    rw [decide_eq_true_eq]
    rintro rfl
    exact h (List.mem_reverse.mp hc)
  have hspace : ∀ c ∈ (' ' :: value.reverse).head?, decide (c ≠ ' ') = false := by
    rintro c ⟨rfl⟩
    decide
  obtain ⟨htaken, hdropped⟩ := Text.span_run hword hspace
  have hreverse : (value ++ ' ' :: name).reverse = name.reverse ++ ' ' :: value.reverse := by simp
  unfold beforeLastSpace afterLastSpace List.rdropWhile List.rtakeWhile
  rw [hreverse, htaken, hdropped]
  simp

theorem splitAt_writeField {field : List Char × List Char} (h : IsLegible field) :
    Text.splitAt '=' (writeField field) = [field.1, field.2] := by
  unfold writeField
  rw [Text.splitAt_append _ h.name.1, Text.splitAt_of_notMem h.value]

theorem joinFields_cons_cons (field next : List Char × List Char)
    (rest : List (List Char × List Char)) : joinFields (field :: next :: rest) =
      field.1 ++ '=' :: (field.2 ++ ' ' :: joinFields (next :: rest)) := by
  unfold joinFields
  rw [List.map_cons, List.map_cons, List.intercalate_cons_cons]
  simp [writeField]

/-- Fields begin with the name of the first one. -/
theorem exists_joinFields (field : List Char × List Char) (rest : List (List Char × List Char)) :
    ∃ more, joinFields (field :: rest) = field.1 ++ '=' :: more := by
  cases rest with
  | nil => exact ⟨field.2, List.intercalate_singleton⟩
  | cons next rest => exact ⟨_, joinFields_cons_cons field next rest⟩

/-- **Legible fields are read as they were written.** -/
theorem readFields_joinFields {fields : List (List Char × List Char)}
    (h : ∀ field ∈ fields, IsLegible field) : readFields (joinFields fields) = fields := by
  induction fields with
  | nil => rfl
  | cons field rest ih =>
      obtain ⟨hfield, hrest⟩ := List.forall_mem_cons.mp h
      cases rest with
      | nil =>
          unfold readFields joinFields
          rw [List.map_singleton, List.intercalate_singleton, splitAt_writeField hfield]
          rfl
      | cons next rest =>
          obtain ⟨hnext, _⟩ := List.forall_mem_cons.mp hrest
          -- up to the next equals sign there are the value and the name of the next field
          obtain ⟨more, hmore⟩ := exists_joinFields next rest
          have hline : joinFields (field :: next :: rest)
              = field.1 ++ '=' :: ((field.2 ++ ' ' :: next.1) ++ '=' :: more) := by
            rw [joinFields_cons_cons, hmore, List.append_assoc, List.cons_append]
          have hplain : '=' ∉ field.2 ++ ' ' :: next.1 := by
            simp only [List.mem_append, List.mem_cons, not_or]
            exact ⟨hfield.value, by decide, hnext.name.1⟩
          obtain ⟨piece, pieces, hpieces⟩ := Text.exists_splitAt '=' more
          obtain ⟨hvalue, hname⟩ := @lastSpace_append field.2 next.1 hnext.name.2
          have hread := ih hrest
          unfold readFields at hread ⊢
          rw [hmore, Text.splitAt_append _ hnext.name.1, hpieces] at hread
          rw [hline, Text.splitAt_append _ hfield.name.1, Text.splitAt_append _ hplain, hpieces]
          dsimp only at hread ⊢
          rw [fieldsFrom, hvalue, hname, hread]

/-! ## Audit entries -/

/-- The fields of an audit entry, read from its line. -/
def readAudit (line : String) : List (String × String) :=
  (readFields (line.toList.drop "AUDIT: ".length)).map
    fun field => (String.ofList field.1, String.ofList field.2)

/-- A character that may be in the value of a field: no equals sign, and of the control characters
of ASCII only the tab. -/
def InValue (c : Char) : Prop := c ≠ '=' ∧ (c = '\t' ∨ 32 ≤ c.toNat ∧ c.toNat ≠ 127)

instance : DecidablePred InValue := fun _ => inferInstanceAs (Decidable (_ ∧ _))

theorem IsKept.inValue {c : Char} (h : IsKept c) : InValue c := by
  refine ⟨?_, h.toNat_cases.imp_left fun htab => Char.toNat_inj.mp htab⟩
  rintro rfl
  exact absurd h.isSafe (by decide)

theorem inValue_sanitize (limit : Int) (value : Json) :
    Text.Throughout InValue (sanitize limit value).toList := by
  by_cases hplaceholder : sanitize limit value = "[sanitized]"
  · rw [hplaceholder]
    decide
  · exact fun c hc => (isKept_of_mem_sanitize hplaceholder hc).inValue

namespace Audit

variable {a b : Audit} {flag other : Bool}

/-- The entries tell the same of the same fields. -/
structure TellsSame (a b : Audit) : Prop where
  /-- The same was done. -/
  action : sanitize usualLimit a.action = sanitize usualLimit b.action
  /-- It was done by the same user. -/
  user : sanitizeOr "[no_user]" usualLimit a.user = sanitizeOr "[no_user]" usualLimit b.user
  /-- It was done to the same plugin. -/
  plugin : sanitizeOr "[no_id]" usualLimit a.plugin = sanitizeOr "[no_id]" usualLimit b.plugin
  /-- Both are about a release, or neither is. -/
  versioned : a.version = .null ↔ b.version = .null
  /-- They are about the same release. -/
  version : sanitize versionLimit a.version = sanitize versionLimit b.version
  /-- Both succeeded, or neither did. -/
  success : a.success = b.success

/-- The names are words, and the values are made of characters that may be in one. -/
theorem inValue_fields (h : a.success = .bool flag) : ∀ field ∈ a.fields,
    Text.Throughout (fun c => InValue c ∧ c ≠ ' ') field.1.toList ∧
      Text.Throughout InValue field.2.toList := by
  have hflag : ∀ flag : Bool, Text.Throughout InValue (Json.bool flag).display.toList := by decide
  exact forall_mem_fields
    (P := fun name => Text.Throughout (fun c => InValue c ∧ c ≠ ' ') name.toList)
    (Q := fun value => Text.Throughout InValue value.toList) (by decide) (by decide)
    inValue_sanitize (h ▸ hflag flag)

theorem toList_line (a : Audit) : a.line.toList =
    "AUDIT: ".toList ++
      joinFields (a.fields.map fun field => (field.1.toList, field.2.toList)) := by
  unfold line joinFields
  rw [String.toList_append, String.toList_intercalate, List.map_map, List.map_map]
  congr 2
  refine List.map_congr_left fun field _ => ?_
  show (field.1 ++ "=" ++ field.2).toList = field.1.toList ++ '=' :: field.2.toList
  rw [String.toList_append, String.toList_append, List.append_assoc]
  rfl

/-- The fields are read from the line. -/
theorem readAudit_line (h : a.success = .bool flag) : readAudit a.line = a.fields := by
  have hlegible : ∀ field ∈ a.fields.map fun field => (field.1.toList, field.2.toList),
      IsLegible field := by
    refine List.forall_mem_map.mpr fun field hfield => ?_
    obtain ⟨hname, hvalue⟩ := inValue_fields h field hfield
    exact ⟨⟨fun hc => (hname _ hc).1.1 rfl, fun hc => (hname _ hc).2 rfl⟩,
      fun hc => (hvalue _ hc).1 rfl⟩
  unfold readAudit
  rw [toList_line, ← String.length_toList, List.drop_left, readFields_joinFields hlegible,
    List.map_map]
  conv_rhs => rw [← List.map_id a.fields]
  refine List.map_congr_left fun field _ => ?_
  exact Prod.ext String.ofList_toList String.ofList_toList

/-! ## What a line tells -/

theorem success_eq (ha : a.success = .bool flag) (hb : b.success = .bool other)
    (h : a.success.display = b.success.display) : a.success = b.success := by
  have hwords : ∀ flag other : Bool,
      (Json.bool flag).display = (Json.bool other).display → flag = other := by decide
  rw [ha, hb] at h ⊢
  rw [hwords flag other h]

theorem versionField_of_ne_null (h : a.version ≠ .null) :
    a.versionField = [("version", sanitize versionLimit a.version)] := by
  unfold versionField
  split
  · rename_i hnull
    exact absurd hnull h
  · rfl

theorem versionField_of_null (h : a.version = .null) : a.versionField = [] := by
  unfold versionField
  rw [h]

/-- A version that is null is told apart from one that is shown by the same word. -/
theorem versionField_eq_iff : a.versionField = b.versionField ↔
    (a.version = .null ↔ b.version = .null) ∧
      sanitize versionLimit a.version = sanitize versionLimit b.version := by
  by_cases ha : a.version = .null
  · by_cases hb : b.version = .null
    · rw [versionField_of_null ha, versionField_of_null hb, ha, hb]
      exact iff_of_true rfl ⟨Iff.rfl, rfl⟩
    · rw [versionField_of_null ha, versionField_of_ne_null hb]
      exact iff_of_false nofun fun h => hb (h.1.mp ha)
  · by_cases hb : b.version = .null
    · rw [versionField_of_ne_null ha, versionField_of_null hb]
      exact iff_of_false nofun fun h => ha (h.1.mpr hb)
    · rw [versionField_of_ne_null ha, versionField_of_ne_null hb]
      simp [ha, hb]

theorem fields_eq_iff (ha : a.success = .bool flag) (hb : b.success = .bool other) :
    a.fields = b.fields ↔ TellsSame a b := by
  unfold fields
  constructor
  · intro h
    -- the version may be missing, so the fields are compared from both ends
    obtain ⟨hfront, hsuccess⟩ := List.append_inj' h rfl
    obtain ⟨hthree, hversion⟩ := List.append_inj hfront rfl
    obtain ⟨hversioned, hversion⟩ := versionField_eq_iff.mp hversion
    simp only [List.cons.injEq, Prod.mk.injEq, true_and, and_true] at hthree hsuccess
    exact ⟨hthree.1, hthree.2.1, hthree.2.2, hversioned, hversion, success_eq ha hb hsuccess⟩
  · intro h
    rw [h.action, h.user, h.plugin, versionField_eq_iff.mpr ⟨h.versioned, h.version⟩, h.success]

/-- **An audit entry can be read, and cannot be forged.** Whatever was done by whom and to what, the
line of the entry has no control character of ASCII but tabs, the fields are read from it as they
were written, and an entry about something else, or one with another value in a field, has another
line. -/
theorem line_legible (h : a.success = .bool flag) :
    (∀ c ∈ a.line.toList, c = '\t' ∨ 32 ≤ c.toNat ∧ c.toNat ≠ 127) ∧
    readAudit a.line = a.fields ∧
    ∀ (b : Audit) (other : Bool), b.success = .bool other →
      (a.line = b.line ↔ TellsSame a b) := by
  refine ⟨?_, readAudit_line h, fun b other hb => ?_⟩
  · refine throughout_line (P := fun c => c = '\t' ∨ 32 ≤ c.toNat ∧ c.toNat ≠ 127) (by decide)
      (by decide) fun field hfield => ?_
    obtain ⟨hname, hvalue⟩ := inValue_fields h field hfield
    exact ⟨fun c hc => (hname c hc).1.2, fun c hc => (hvalue c hc).2⟩
  · rw [← fields_eq_iff h hb]
    constructor
    · intro hline
      rw [← readAudit_line h, hline, readAudit_line hb]
    · intro hfields
      unfold line
      rw [hfields]

/-- A user name that tries to end the line, and to name a plugin and a failure of its own, is shown
as one value. Another such name is shown by the same value, so its entry has the same line. -/
theorem line_legible_forging :
    readAudit (Audit.line ⟨.str "delete", .str "ann plugin=acme.b success=False\r\nAUDIT: ",
        .str "acme.a", .null, .bool true⟩) =
      [("action", "delete"), ("user", "ann pluginacme.b successFalseAUDIT"), ("plugin", "acme.a"),
        ("success", "True")] ∧
    Audit.line ⟨.str "delete", .str "ann plugin=acme.b success=False\r\nAUDIT: ", .str "acme.a",
        .null, .bool true⟩ =
      Audit.line ⟨.str "delete", .str " ann plugin:acme.b success:False%0aAUDIT", .str "acme.a",
        .null, .bool true⟩ := by
  have hlegible := @line_legible ⟨.str "delete", .str "ann plugin=acme.b success=False\r\nAUDIT: ",
    .str "acme.a", .null, .bool true⟩ true rfl
  refine ⟨hlegible.2.1.trans (by decide), (hlegible.2.2 _ true rfl).mpr ?_⟩
  exact ⟨rfl, by decide, rfl, Iff.rfl, rfl, rfl⟩

end Audit

end PluginRegistry.Log
