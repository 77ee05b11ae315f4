import PluginRegistry.Proofs.CaseMapping
import PluginRegistry.Proofs.RecordReading
import PluginRegistry.Settings.Basic

/-!
# Settings that were read are read again

Three settings are checked as they are read, and two of them are changed: the acting user loses the
blanks around it, and the level of the log is put into upper case. Both changes are made once only,
so settings that were read can be told by their values, and are the same settings when they are read
from these. With another address or level among the values, that one is all that can be refused.
-/

namespace PluginRegistry.Settings

open PluginRegistry.Schema

variable {s : Settings} {given rest : List (String × Json)} {value : Document} {text : String}

/-! ## Checks -/

theorem occursIn_iff {part cs : List Char} : occursIn part cs = true ↔ part <:+: cs := by
  induction cs with
  | nil =>
      unfold occursIn
      rw [List.isEmpty_iff, List.infix_nil]
  | cons c rest ih =>
      unfold occursIn
      rw [Bool.or_eq_true, List.isPrefixOf_iff_prefix, ih, List.infix_cons_iff]

/-- The text has a colon and two slashes, as every address of a database. -/
def IsAddress (text : String) : Prop := "://".toList <:+: text.toList

instance : DecidablePred IsAddress := fun _ => decidable_of_iff _ occursIn_iff

theorem text_text (text : String) : Schema.text (.text text) = .ok text := rfl

theorem readDatabaseUrl_text (text : String) :
    readDatabaseUrl (.text text) =
      if IsAddress text then .ok text
      else .fail (.refused
        "Database URL must be a SQLAlchemy URL (e.g. sqlite:///plugins.db)") := by
  unfold readDatabaseUrl
  rw [text_text]
  exact ite_congr (propext occursIn_iff) (fun _ => rfl) fun _ => rfl

theorem readDatabaseUrl_eq_ok (h : readDatabaseUrl value = .ok text) : IsAddress text := by
  unfold readDatabaseUrl Checked.andThen at h
  split at h
  · dsimp only at h
    split at h
    · rename_i hfound
      cases h
      exact occursIn_iff.mp hfound
    · cases h
  · cases h

theorem readLogLevel_text (text : String) :
    readLogLevel (.text text) =
      if Text.upper text ∈ logLevels then .ok (Text.upper text)
      else .fail (.refused ("Unknown log level: " ++ text)) := by
  unfold readLogLevel
  rw [text_text]
  exact ite_congr (propext List.contains_iff_mem) (fun _ => rfl) fun _ => rfl

theorem readLogLevel_eq_ok (h : readLogLevel value = .ok text) : text ∈ logLevels := by
  unfold readLogLevel Checked.andThen at h
  split at h
  · dsimp only at h
    split at h
    · rename_i hknown
      cases h
      exact List.contains_iff_mem.mp hknown
    · cases h
  · cases h

/-- The name is as it is once it was read. -/
def IsUser (name : String) : Prop := Text.trimmed name = name ∧ name ≠ ""

instance : DecidablePred IsUser := fun _ => inferInstanceAs (Decidable (_ ∧ _))

theorem readAnonymousUser_text (h : IsUser text) : readAnonymousUser (.text text) = .ok text := by
  unfold readAnonymousUser
  rw [text_text]
  dsimp only [Checked.andThen]
  rw [h.1, if_neg h.2]

theorem readAnonymousUser_eq_ok (h : readAnonymousUser value = .ok text) : IsUser text := by
  unfold readAnonymousUser Checked.andThen at h
  split at h
  · dsimp only at h
    split at h
    · cases h
    · rename_i hblank
      cases h
      exact ⟨Text.trimmed_trimmed _, hblank⟩
  · cases h

/-! ## Levels of the log -/

theorem capital_logLevels :
    ∀ level ∈ logLevels, Text.Throughout (fun c => 65 ≤ c.toNat ∧ c.toNat ≤ 90) level.toList := by
  decide

theorem upper_of_mem {level : String} (h : level ∈ logLevels) : Text.upper level = level :=
  Text.upper_of_capitals (capital_logLevels level h)

/-- A level that was put into upper case is known if it is known when that is done again. -/
theorem upper_upper_mem {level : String} :
    Text.upper (Text.upper level) ∈ logLevels ↔ Text.upper level ∈ logLevels := by
  have hplain : ∀ level ∈ logLevels, ∀ c ∈ level.toList, Text.IsPlain c := fun level h c hc =>
    Nat.lt_of_le_of_lt (capital_logLevels level h c hc).2 (by decide)
  constructor
  · intro h
    rwa [Text.upper_upper_of_plain (hplain _ h)] at h
  · intro h
    rwa [upper_of_mem h]

/-! ## Settings that were read -/

/-- What holds of settings that were read. -/
structure Accepted (s : Settings) : Prop where
  /-- The database has an address. -/
  address : IsAddress s.databaseUrl
  /-- The name for nobody is as it is once it was read. -/
  user : IsUser s.anonymousUser
  /-- The level of the log is known. -/
  level : s.logLevel ∈ logLevels

/-- Behind declared settings, what is undeclared is left over. -/
theorem filter_undeclared {members : List (String × Json)} (hmembers : ∀ m ∈ members, m.1 ∈ names)
    (hrest : ∀ m ∈ rest, m.1 ∉ names) :
    ((members ++ rest).filter fun m => m.1 ∉ names) = rest := by
  rw [List.filter_append, List.filter_eq_nil_iff.mpr, List.filter_eq_self.mpr, List.nil_append]
  · intro m hm
    simpa using hrest m hm
  · intro m hm
    simpa using hmembers m hm

/-- What is left over is under names of its own, as it was given. -/
theorem extras_of_given (hn : (given.map Prod.fst).Nodup) :
    Schema.extras (names.map field) (Json.toEntries given) =
      .ok ((given.filter fun m => m.1 ∉ names).map fun m => (m.1, m.2.toDocument)) := by
  rw [extras_toEntries hn]
  congr 2
  refine List.filter_congr fun m hm => ?_
  have htaken : m.1 ∈ taken (names.map field) (Json.toEntries given) ↔ m.1 ∈ names := by
    constructor
    · intro h
      obtain ⟨f, hf, hfound⟩ := List.mem_filterMap.mp h
      obtain ⟨name, hname, rfl⟩ := List.mem_map.mp hf
      obtain ⟨found, hfound, hkey⟩ := Option.map_eq_some_iff.mp hfound
      -- a setting is looked up under its name only
      have hsame : found.1 = name := by
        unfold Field.find? at hfound
        split at hfound
        · cases hfound
          rfl
        · obtain ⟨_, _, rfl⟩ := Option.map_eq_some_iff.mp hfound
          rfl
      rwa [← hkey, hsame]
    · intro h
      have hfield : field m.1 ∈ names.map field := List.mem_map_of_mem h
      exact mem_taken hfield (List.mem_map_of_mem hm)
  simp [htaken]

/-- **Settings that were read are accepted**, and have what was left over. -/
theorem accepted_of_ofEntries (hn : (given.map Prod.fst).Nodup)
    (h : ofEntries (Json.toEntries given) = .ok s) :
    s.Accepted ∧
      s.extras = (given.filter fun m => m.1 ∉ names).map fun m => (m.1, m.2.toDocument) := by
  unfold ofEntries at h
  obtain ⟨_, extras, h₁, hextras, rfl⟩ := Checked.apply_eq_ok h
  obtain ⟨_, format, h₂, -, rfl⟩ := Checked.apply_eq_ok h₁
  obtain ⟨_, level, h₃, hlevel, rfl⟩ := Checked.apply_eq_ok h₂
  obtain ⟨_, unique, h₄, -, rfl⟩ := Checked.apply_eq_ok h₃
  obtain ⟨_, requires, h₅, -, rfl⟩ := Checked.apply_eq_ok h₄
  obtain ⟨_, canonical, h₆, -, rfl⟩ := Checked.apply_eq_ok h₅
  obtain ⟨_, user, h₇, huser, rfl⟩ := Checked.apply_eq_ok h₆
  obtain ⟨_, path, h₈, -, rfl⟩ := Checked.apply_eq_ok h₇
  obtain ⟨_, echo, h₉, -, rfl⟩ := Checked.apply_eq_ok h₈
  obtain ⟨_, url, h₁₀, hurl, rfl⟩ := Checked.apply_eq_ok h₉
  obtain ⟨_, debug, h₁₁, -, rfl⟩ := Checked.apply_eq_ok h₁₀
  obtain ⟨_, version, h₁₂, -, rfl⟩ := Checked.apply_eq_ok h₁₁
  obtain ⟨name, -, rfl⟩ := Checked.map_eq_ok h₁₂
  rw [extras_of_given hn] at hextras
  refine ⟨⟨?_, ?_, ?_⟩, (Checked.ok.inj hextras).symm⟩
  · rcases optional_eq_ok hurl with rfl | ⟨m, _, hread⟩
    · have husual : IsAddress "sqlite:///./plugininfo.db" := by decide
      exact husual
    · exact readDatabaseUrl_eq_ok hread
  · rcases optional_eq_ok huser with rfl | ⟨m, _, hread⟩
    · have husual : IsUser "anonymous" := by decide
      exact husual
    · exact readAnonymousUser_eq_ok hread
  · rcases optional_eq_ok hlevel with rfl | ⟨m, _, hread⟩
    · have husual : "INFO" ∈ logLevels := by decide
      exact husual
    · exact readLogLevel_eq_ok hread

/-! ## Settings that are told -/

/-- Why an address and a level of the log are refused, in the order of the settings. -/
def refusals (url level : String) : List Fault :=
  (if IsAddress url then [] else
    [⟨[.member "database_url"],
      .refused "Database URL must be a SQLAlchemy URL (e.g. sqlite:///plugins.db)"⟩]) ++
  if Text.upper level ∈ logLevels then [] else
    [⟨[.member "log_level"], .refused ("Unknown log level: " ++ level)⟩]

theorem refusals_eq_nil {url level : String} :
    refusals url level = [] ↔ IsAddress url ∧ Text.upper level ∈ logLevels := by
  unfold refusals
  split <;> split <;> simp [*]

/-- What is told of settings, and nothing else, is under their names. -/
theorem map_fst_members (s : Settings) : s.members.map Prod.fst = names := rfl

/-- **Settings are read from what is told of them**, whatever is told beside them. Nothing but the
address and the level can be refused. -/
theorem ofEntries_members (huser : IsUser s.anonymousUser)
    (hn : ((s.members ++ rest).map Prod.fst).Nodup) :
    ofEntries (Json.toEntries (s.members ++ rest)) =
      match refusals s.databaseUrl s.logLevel with
      | [] => .ok { s with
          logLevel := Text.upper s.logLevel
          extras := rest.map fun m => (m.1, m.2.toDocument) }
      | faults => .wrong faults := by
  have hrest : ((s.members ++ rest).filter fun m => m.1 ∉ names) = rest := by
    rw [List.map_append, map_fst_members] at hn
    have hother := (List.nodup_append.mp hn).2.2
    refine filter_undeclared (fun m hm => s.map_fst_members ▸ List.mem_map_of_mem hm) ?_
    exact fun m hm hname => hother m.1 hname m.1 (List.mem_map_of_mem hm) rfl
  have hread : ∀ {α : Type} (name : String) {value : Json} (absent : α)
      (read : Document → Checked α), (s.members ++ rest).lookup name = some value →
      Schema.optional (Json.toEntries (s.members ++ rest)) (field name) absent read =
        (read value.toDocument).within (.member name) := by
    intro α name value absent read hvalue
    have hfound : (field name).find? (Json.toEntries (s.members ++ rest)) =
        some (name, value.toDocument) := find?_of_lookup hvalue
    unfold Schema.optional
    rw [hfound]
  unfold ofEntries
  simp only [hread "app_name" _ _ rfl, hread "app_version" _ _ rfl, hread "debug" _ _ rfl,
    hread "database_url" _ _ rfl, hread "database_echo" _ _ rfl,
    hread "binary_storage_path" _ _ rfl, hread "anonymous_user" _ _ rfl,
    hread "enforce_canonical_ids" _ _ rfl, hread "enforce_requires_format" _ _ rfl,
    hread "enforce_unique_versions" _ _ rfl, hread "log_level" _ _ rfl,
    hread "log_format" _ _ rfl, extras_of_given hn, hrest]
  simp only [Json.toDocument, readDatabaseUrl_text, readLogLevel_text,
    readAnonymousUser_text huser, nullable_text]
  unfold refusals
  by_cases hurl : IsAddress s.databaseUrl
  · by_cases hlevel : Text.upper s.logLevel ∈ logLevels
    · rw [if_pos hurl, if_pos hlevel, if_pos hurl, if_pos hlevel]
      rfl
    · rw [if_pos hurl, if_neg hlevel, if_pos hurl, if_neg hlevel]
      rfl
  · by_cases hlevel : Text.upper s.logLevel ∈ logLevels
    · rw [if_neg hurl, if_pos hlevel, if_neg hurl, if_pos hlevel]
      rfl
    · rw [if_neg hurl, if_neg hlevel, if_neg hurl, if_neg hlevel]
      rfl

end PluginRegistry.Settings
