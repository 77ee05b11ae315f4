import PluginRegistry.Log.Audit
import PluginRegistry.Failure
import PluginRegistry.Proofs.CleanedText
import Mathlib.Data.List.Basic

/-!
# Texts that stay on one line

A value that was cleaned for the log has no line break in it, whatever it was before: the breaks are
taken out first, and what is done to the text afterwards only leaves out more. A text that is quoted
has none either, since a break between quotes is written as a letter behind a backslash. What is put
together from such texts and from words without breaks is on one line.

A message that shows a key of an artifact as it is has a break exactly if the key has one.
-/

namespace PluginRegistry

namespace Log

/-! ## Characters -/

/-- There is no line break among the characters. -/
def Unbroken (cs : List Char) : Prop := ∀ c ∈ cs, isLineBreak c = false

theorem unbroken_append {a b : List Char} : Unbroken (a ++ b) ↔ Unbroken a ∧ Unbroken b :=
  List.forall_mem_append

theorem Unbroken.of_subset {a b : List Char} (h : Unbroken b) (hsub : a ⊆ b) : Unbroken a :=
  fun c hc => h c (hsub hc)

theorem unbroken_flatMap {cs : List Char} {f : Char → List Char} (h : ∀ c ∈ cs, Unbroken (f c)) :
    Unbroken (cs.flatMap f) := by
  intro c hc
  obtain ⟨c', hc', hmem⟩ := List.mem_flatMap.mp hc
  exact h c' hc' c hmem

theorem unbroken_safeChars (limit : Int) (cs : List Char) : Unbroken (safeChars limit cs) :=
  fun _ hc => (isKept_of_mem_clean hc).unbroken

/-! ## Digits and codes -/

theorem isLineBreak_digitChar (n : Nat) : isLineBreak n.digitChar = false := by
  unfold isLineBreak
  rw [decide_eq_false (Nat.digitChar_ne '\n' (by decide)),
    decide_eq_false (Nat.digitChar_ne '\r' (by decide))]
  rfl

theorem unbroken_toDigits {base : Nat} (hbase : 1 < base) (n : Nat) :
    Unbroken (Nat.toDigits base n) := by
  induction n using Nat.strongRecOn with
  | ind n ih =>
      rw [Nat.toDigits_eq_if hbase]
      split
      · exact fun c hc => List.mem_singleton.mp hc ▸ isLineBreak_digitChar n
      · rename_i hlarge
        have hless : n / base < n := Nat.div_lt_self (by omega) hbase
        rw [unbroken_append]
        exact ⟨ih _ hless, fun c hc => List.mem_singleton.mp hc ▸ isLineBreak_digitChar _⟩

theorem unbroken_hex (width n : Nat) : Unbroken (Text.hex width n) := by
  unfold Text.hex
  rw [unbroken_append]
  refine ⟨fun c hc => ?_, unbroken_toDigits (by decide) n⟩
  rw [List.eq_of_mem_replicate hc]
  rfl

theorem unbroken_pair {a b : Char} {cs : List Char} (ha : isLineBreak a = false)
    (hb : isLineBreak b = false) (h : Unbroken cs) : Unbroken (a :: b :: cs) :=
  List.forall_mem_cons.mpr ⟨ha, List.forall_mem_cons.mpr ⟨hb, h⟩⟩

theorem unbroken_escapeCode (c : Char) : Unbroken (Text.escapeCode c) := by
  unfold Text.escapeCode
  dsimp only
  generalize (if Text.isHalf c then c.toNat - Text.halfShift else c.toNat) = code
  split
  · exact unbroken_pair (by decide) (by decide) (unbroken_hex 2 code)
  · split
    · exact unbroken_pair (by decide) (by decide) (unbroken_hex 4 code)
    · exact unbroken_pair (by decide) (by decide) (unbroken_hex 8 code)

theorem isLineBreak_quoteMark (cs : List Char) : isLineBreak (Text.quoteMark cs) = false := by
  unfold Text.quoteMark
  split
  · rfl
  · rfl

theorem unbroken_escapeChar {mark : Char} (hmark : isLineBreak mark = false) (c : Char) :
    Unbroken (Text.escapeChar mark c) := by
  have hpair : ∀ letter : Char, isLineBreak letter = false → Unbroken ['\x5c', letter] :=
    fun letter hletter => unbroken_pair (by decide) hletter (List.forall_mem_nil _)
  unfold Text.escapeChar
  split
  · rename_i hsame
    rcases hsame with rfl | rfl
    · exact hpair _ hmark
    · exact hpair _ rfl
  · split
    · exact hpair 'n' rfl
    · split
      · exact hpair 'r' rfl
      · split
        · exact hpair 't' rfl
        · -- what is neither of the two breaks is none
          rename_i hfeed hreturn _
          split
          · intro c' hc'
            rw [List.mem_singleton.mp hc']
            simp [isLineBreak, hfeed, hreturn]
          · exact unbroken_escapeCode c

/-! ## Texts -/

/-- There is no line break in the text. -/
def OnOneLine (text : String) : Prop := Unbroken text.toList

instance : DecidablePred OnOneLine :=
  fun text => List.decidableBAll (fun c => isLineBreak c = false) text.toList

theorem onOneLine_append {a b : String} : OnOneLine (a ++ b) ↔ OnOneLine a ∧ OnOneLine b := by
  unfold OnOneLine
  rw [String.toList_append, unbroken_append]

theorem onOneLine_ofList {cs : List Char} (h : Unbroken cs) : OnOneLine (String.ofList cs) := by
  unfold OnOneLine
  rw [String.toList_ofList]
  exact h

theorem onOneLine_toString (n : Nat) : OnOneLine (toString n) := by
  rw [Nat.toString_eq_ofList_toDigits]
  exact onOneLine_ofList (unbroken_toDigits (by decide) n)

theorem onOneLine_quoted (text : String) : OnOneLine (Text.quoted text) := by
  have hmark := isLineBreak_quoteMark text.toList
  refine onOneLine_ofList (unbroken_append.mpr ⟨?_, fun c hc => List.mem_singleton.mp hc ▸ hmark⟩)
  exact List.forall_mem_cons.mpr ⟨hmark, unbroken_flatMap fun c _ => unbroken_escapeChar hmark c⟩

/-- **A text that was cleaned has no line break.** -/
theorem onOneLine_sanitizeText (limit : Int) (text : String) :
    OnOneLine (sanitizeText limit text) := by
  rcases sanitizeText_cases limit text with hplaceholder | ⟨_, hkept⟩
  · rw [hplaceholder]
    decide
  · unfold OnOneLine
    rw [hkept]
    exact (unbroken_safeChars limit text.toList).of_subset (Text.trim_sublist _).subset

theorem onOneLine_sanitize (limit : Int) (value : Json) : OnOneLine (sanitize limit value) := by
  unfold sanitize
  split
  · decide
  · exact onOneLine_sanitizeText _ _

theorem onOneLine_sanitizeOr {words : String} (h : OnOneLine words) (limit : Int) (value : Json) :
    OnOneLine (sanitizeOr words limit value) := by
  unfold sanitizeOr
  split
  · exact onOneLine_sanitize _ _
  · exact h

theorem onOneLine_releaseName (plugin version : Json) : OnOneLine (releaseName plugin version) := by
  unfold releaseName
  rw [onOneLine_append, onOneLine_append]
  exact ⟨⟨onOneLine_sanitizeOr (by decide) _ _, by decide⟩,
    onOneLine_sanitizeOr (by decide) _ _⟩

/-! ## Audit entries -/

namespace Audit

variable {a : Audit}

/-- The names of fields are few, and their values are cleaned or written down here. -/
theorem forall_mem_fields {P Q : String → Prop}
    (hnames : ∀ name ∈ ["action", "user", "plugin", "version", "success"], P name)
    (hwords : ∀ words ∈ ["[no_user]", "[no_id]"], Q words)
    (hclean : ∀ limit value, Q (sanitize limit value)) (hsuccess : Q a.success.display) :
    ∀ field ∈ a.fields, P field.1 ∧ Q field.2 := by
  have hor : ∀ words ∈ ["[no_user]", "[no_id]"], ∀ limit value,
      Q (sanitizeOr words limit value) := by
    intro words hmem limit value
    unfold sanitizeOr
    split
    · exact hclean limit value
    · exact hwords words hmem
  have hversion : ∀ field ∈ a.versionField, P field.1 ∧ Q field.2 := by
    unfold versionField
    split
    · exact List.forall_mem_nil _
    · exact List.forall_mem_singleton.mpr ⟨hnames "version" (by decide), hclean _ _⟩
  simp only [fields, List.forall_mem_append, List.forall_mem_cons]
  exact ⟨⟨⟨⟨hnames "action" (by decide), hclean _ _⟩,
    ⟨hnames "user" (by decide), hor _ (by decide) _ _⟩,
    ⟨hnames "plugin" (by decide), hor _ (by decide) _ _⟩, List.forall_mem_nil _⟩, hversion⟩,
    ⟨hnames "success" (by decide), hsuccess⟩, List.forall_mem_nil _⟩

/-- The line has the characters of its fields, and those of the marks around them. -/
theorem throughout_line {P : Char → Prop} (hstart : Text.Throughout P "AUDIT: ".toList)
    (hequals : P '=') (hfields : ∀ field ∈ a.fields,
      Text.Throughout P field.1.toList ∧ Text.Throughout P field.2.toList) :
    Text.Throughout P a.line.toList := by
  have hblank : Text.Throughout P " ".toList :=
    List.forall_mem_singleton.mpr (hstart ' ' (by decide))
  have hmark : Text.Throughout P "=".toList := List.forall_mem_singleton.mpr hequals
  unfold line
  rw [String.toList_append, Text.throughout_append, String.toList_intercalate]
  refine ⟨hstart, Text.throughout_intercalate hblank fun piece hpiece => ?_⟩
  simp only [List.map_map, List.mem_map] at hpiece
  obtain ⟨field, hmem, rfl⟩ := hpiece
  obtain ⟨hname, hvalue⟩ := hfields field hmem
  rw [Function.comp_apply, String.toList_append, String.toList_append, Text.throughout_append,
    Text.throughout_append]
  exact ⟨⟨hname, hmark⟩, hvalue⟩

/-- The line of an audit entry is one line. -/
theorem onOneLine_line (h : OnOneLine a.success.display) : OnOneLine a.line := by
  refine throughout_line (P := fun c => isLineBreak c = false) (by decide) rfl ?_
  exact forall_mem_fields (P := OnOneLine) (Q := OnOneLine) (by decide) (by decide)
    onOneLine_sanitize h

end Audit

end Log

/-! ## Faults of the store -/

/-- What is said of halves names them by their code or their position only. -/
theorem Text.HalfRun.onOneLine_message (halves : Text.HalfRun) : Log.OnOneLine halves.message := by
  have hplace : Log.OnOneLine
      (if halves.count = 1 then
        "character '" ++ String.ofList (Text.escapeCode halves.half) ++
          s!"' in position {halves.position}"
      else
        s!"characters in position {halves.position}-{halves.position + halves.count - 1}") := by
    split
    · exact Log.onOneLine_append.mpr
        ⟨Log.onOneLine_append.mpr
          ⟨by decide, Log.onOneLine_ofList (Log.unbroken_escapeCode _)⟩,
          Log.onOneLine_append.mpr ⟨by decide, Log.onOneLine_toString _⟩⟩
    · exact Log.onOneLine_append.mpr
        ⟨Log.onOneLine_append.mpr
          ⟨Log.onOneLine_append.mpr ⟨by decide, Log.onOneLine_toString _⟩,
            by decide⟩, Log.onOneLine_toString _⟩
  exact Log.onOneLine_append.mpr
    ⟨Log.onOneLine_append.mpr ⟨by decide, hplace⟩, by decide⟩

theorem NameFault.onOneLine_message (fault : NameFault) : Log.OnOneLine fault.message := by
  cases fault with
  | nullCharacter => decide
  | noOctets halves => exact halves.onOneLine_message

theorem FileFault.onOneLine_message (fault : FileFault) : Log.OnOneLine fault.message := by
  have hcause : Log.OnOneLine fault.cause.message := by
    cases fault.cause <;> decide
  exact Log.onOneLine_append.mpr
    ⟨Log.onOneLine_append.mpr ⟨hcause, by decide⟩, Log.onOneLine_quoted _⟩

end PluginRegistry
