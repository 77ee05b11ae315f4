import PluginRegistry.CommandLine.Run
import PluginRegistry.Proofs.SettingsReading
import PluginRegistry.Proofs.SettingsSources

/-!
# What a command line overrides

Settings that a command line overrides are made from what was read: all of it is told as arguments,
with the values of the command line among them, and read again beside the environment and the file.
So every setting has to come through a second reading unchanged. It does, since checks let pass what
they have given, since arguments come before variables, and since the file has nothing beside the
declared settings that is not told as well.

An entry of the file that is called like an option is the exception. As an argument it is the option
and no setting, so it is lost, and the file may be read in another way.
-/

namespace PluginRegistry.CommandLine

variable {environment : List (String × String)} {dotenv : String} {s t : Settings}

/-! ## Settings that are read again -/

/-- What was read beside the declared settings is what is kept of the file. -/
theorem read_of_sources (hs : Settings.ofSources (sources environment dotenv []) = .ok s) :
    s.Accepted ∧ s.extras.payload = (sources environment dotenv []).fileExtras ∧
      s.extras = s.extras.payload.map fun m => (m.1, m.2.toDocument) := by
  have hplain : (sources environment dotenv []).Plain := nofun
  have hkept := hplain.keepsVariables
  have hgiven : (sources environment dotenv []).given =
      (sources environment dotenv []).declared ++ (sources environment dotenv []).fileExtras :=
    SettingSources.given_of_none _ _
  have hnodup :=
    hkept.nodup_append (SettingSources.sublist_declared (sources environment dotenv []))
  have hread : Settings.ofEntries (Json.toEntries (sources environment dotenv []).given) =
      .ok s := by
    unfold Settings.ofSources Schema.Checked.forRecord at hs
    split at hs
    · rename_i hread
      cases hs
      exact hread
    · cases hs
  rw [hgiven] at hread
  obtain ⟨haccepted, hextras⟩ := Settings.accepted_of_ofEntries hnodup hread
  have hleft : (((sources environment dotenv []).declared ++
      (sources environment dotenv []).fileExtras).filter fun m => m.1 ∉ Settings.names) =
        (sources environment dotenv []).fileExtras :=
    Settings.filter_undeclared
      (fun _ hm => (SettingSources.sublist_declared _).subset (List.mem_map_of_mem hm))
      fun m hm => (hkept.names m.1 (List.mem_map_of_mem hm)).undeclared
  rw [hleft] at hextras
  have hpayload : s.extras.payload = (sources environment dotenv []).fileExtras := by
    rw [hextras, Extras.payload, List.map_map]
    refine (List.map_congr_left fun m hm => ?_).trans (List.map_id _)
    obtain ⟨text, htext⟩ := hkept.texts m hm
    have htold : m.2.toDocument.payload = m.2 := by
      rw [htext]
      rfl
    exact Prod.ext rfl htold
  exact ⟨haccepted, hpayload, by rw [hpayload]; exact hextras⟩

/-- **Settings that were read are read again as they are told**, with any address and level. -/
theorem reread (hs : Settings.ofSources (sources environment dotenv []) = .ok s)
    (hplain : ∀ name ∈ s.extras.map Prod.fst, name ∉ SettingSources.options)
    (huser : t.anonymousUser = s.anonymousUser) (hextras : t.extras = s.extras) :
    Settings.ofSources (sources environment dotenv (t.members ++ s.extras.payload)) =
      match Settings.refusals t.databaseUrl t.logLevel with
      | [] => .ok { t with logLevel := Text.upper t.logLevel }
      | faults => .error ⟨"Settings", faults⟩ := by
  obtain ⟨haccepted, hpayload, hdocuments⟩ := read_of_sources hs
  have hnone : (sources environment dotenv []).Plain := nofun
  have hkept : SettingSources.KeepsVariables s.extras.payload := hpayload ▸ hnone.keepsVariables
  have hgiven : (sources environment dotenv (t.members ++ s.extras.payload)).given =
      t.members ++ s.extras.payload := by
    refine SettingSources.given_of_members t.map_fst_members rfl hpayload fun name hname => ?_
    rw [Extras.keys_payload] at hname
    exact hplain name hname
  have hnodup : ((t.members ++ s.extras.payload).map Prod.fst).Nodup :=
    hkept.nodup_append (t.map_fst_members ▸ List.Sublist.refl _)
  unfold Settings.ofSources
  rw [hgiven, Settings.ofEntries_members (huser ▸ haccepted.user) hnodup, ← hdocuments]
  cases Settings.refusals t.databaseUrl t.logLevel with
  | nil =>
      rw [← hextras]
      rfl
  | cons fault rest => rfl

/-- Settings that were read are told by their values. -/
theorem reread_self (hs : Settings.ofSources (sources environment dotenv []) = .ok s)
    (hplain : ∀ name ∈ s.extras.map Prod.fst, name ∉ SettingSources.options) :
    Settings.ofSources (sources environment dotenv (s.members ++ s.extras.payload)) = .ok s := by
  obtain ⟨haccepted, _⟩ := read_of_sources hs
  have hlevel : Text.upper s.logLevel = s.logLevel := Settings.upper_of_mem haccepted.level
  have hnone : Settings.refusals s.databaseUrl s.logLevel = [] := by
    rw [Settings.refusals_eq_nil, hlevel]
    exact ⟨haccepted.address, haccepted.level⟩
  rw [reread hs hplain rfl rfl, hnone, hlevel]

/-! ## Overrides -/

namespace Request

/-- Settings with what the command line overrides: each value that is there and not empty, in place
of its own setting. -/
def override (r : Request) (s : Settings) : Settings :=
  { s with
    databaseUrl := (r.databaseUrl.filter (· ≠ "")).getD s.databaseUrl
    binaryStoragePath := (r.binaryStorage.filter (· ≠ "")).or s.binaryStoragePath
    logLevel := ((r.logLevel.filter (· ≠ "")).map Text.upper).getD s.logLevel }

/-- The command line gives an address that is none, or a level that is not known in upper case. -/
def IsRefused (r : Request) : Prop :=
  (∃ url, r.databaseUrl = some url ∧ url ≠ "" ∧ ¬"://".toList <:+: url.toList) ∨
    ∃ level, r.logLevel = some level ∧ level ≠ "" ∧ Text.upper level ∉ Settings.logLevels

variable {r : Request}

theorem filter_upper (level : Option String) :
    (level.map Text.upper).filter (· ≠ "") = (level.filter (· ≠ "")).map Text.upper := by
  rw [Option.filter_map]
  simp only [Function.comp_def, ne_eq, Text.upper_eq_empty]

/-- The arguments that settings are made from again tell the ones with the overrides. -/
theorem arguments_eq (r : Request) (s : Settings) :
    r.arguments s = (r.override s).members ++ s.extras.payload := by
  unfold arguments overrides override
  simp only [List.filterMap_cons, List.filterMap_nil, filter_upper]
  cases r.databaseUrl.filter (· ≠ "") with
  | none =>
      cases r.binaryStorage.filter (· ≠ "") with
      | none => cases r.logLevel.filter (· ≠ "") <;> rfl
      | some path => cases r.logLevel.filter (· ≠ "") <;> rfl
  | some url =>
      cases r.binaryStorage.filter (· ≠ "") with
      | none => cases r.logLevel.filter (· ≠ "") <;> rfl
      | some path => cases r.logLevel.filter (· ≠ "") <;> rfl

theorem arguments_of_isEmpty (h : r.overrides.isEmpty = true) (s : Settings) :
    r.arguments s = s.members ++ s.extras.payload := by
  unfold arguments
  rw [List.isEmpty_iff.mp h]
  rfl

/-- With or without overrides, the settings are those that are read from what is told. -/
theorem settings_eq (hs : Settings.ofSources (sources environment dotenv []) = .ok s)
    (hplain : ∀ name ∈ s.extras.map Prod.fst, name ∉ SettingSources.options) :
    (r.settings environment dotenv).1 =
      Settings.ofSources (sources environment dotenv (r.arguments s)) := by
  unfold settings
  rw [hs]
  dsimp only
  split
  · rename_i hempty
    rw [arguments_of_isEmpty hempty, reread_self hs hplain]
  · rfl

theorem filter_nonempty {text : Option String} {found : String} :
    text.filter (· ≠ "") = some found ↔ text = some found ∧ found ≠ "" := by
  rw [Option.filter_eq_some_iff]
  simp

/-- Nothing is refused but what the command line gives. -/
theorem isRefused_iff (hs : s.Accepted) :
    r.IsRefused ↔ Settings.refusals (r.override s).databaseUrl (r.override s).logLevel ≠ [] := by
  have hurl : Settings.IsAddress (r.override s).databaseUrl ↔
      ¬∃ url, r.databaseUrl = some url ∧ url ≠ "" ∧ ¬"://".toList <:+: url.toList := by
    simp only [← and_assoc, ← filter_nonempty]
    unfold override
    cases r.databaseUrl.filter (· ≠ "") with
    | none => simpa using hs.address
    | some url => simp [Settings.IsAddress]
  have hlevel : Text.upper (r.override s).logLevel ∈ Settings.logLevels ↔
      ¬∃ level, r.logLevel = some level ∧ level ≠ "" ∧
        Text.upper level ∉ Settings.logLevels := by
    simp only [← and_assoc, ← filter_nonempty]
    unfold override
    cases r.logLevel.filter (· ≠ "") with
    | none => simpa [Settings.upper_of_mem hs.level] using hs.level
    | some level => simpa using Settings.upper_upper_mem
  rw [ne_eq, Settings.refusals_eq_nil, hurl, hlevel, ← not_or, not_not]
  rfl

/-- A level that is overridden is known as it is, not only in upper case. -/
theorem level_of_known (hs : s.Accepted)
    (h : Text.upper (r.override s).logLevel ∈ Settings.logLevels) :
    (r.override s).logLevel ∈ Settings.logLevels := by
  unfold override at h ⊢
  cases hlevel : r.logLevel.filter (· ≠ "") with
  | none => exact hs.level
  | some level =>
      rw [hlevel] at h
      exact Settings.upper_upper_mem.mp h

/-- **A command line overrides what it names and nothing else.** The settings are refused if and
only if it gives an address that is none or a level that is not known; otherwise they are those that
were read, with the values of the command line. Without any, settings that were read are told by
their values. None of what was read may be called like an option. -/
theorem settings_overridden (r : Request)
    (hs : Settings.ofSources (sources environment dotenv []) = .ok s)
    (hplain : ∀ name ∈ s.extras.map Prod.fst, name ∉ SettingSources.options) :
    (r.IsRefused ↔ ∃ rejection, (r.settings environment dotenv).1 = .error rejection) ∧
    (¬r.IsRefused → (r.settings environment dotenv).1 = .ok (r.override s)) ∧
    Settings.ofSources (sources environment dotenv (s.members ++ s.extras.payload)) = .ok s := by
  obtain ⟨haccepted, _⟩ := read_of_sources hs
  have hrefused := isRefused_iff (r := r) haccepted
  have hsettings := settings_eq (r := r) hs hplain
  rw [r.arguments_eq s, reread (t := r.override s) hs hplain rfl rfl] at hsettings
  have hok : ¬r.IsRefused → (r.settings environment dotenv).1 = .ok (r.override s) := by
    intro hnot
    have hnone := not_not.mp (hrefused.not.mp hnot)
    have hlevel : Text.upper (r.override s).logLevel = (r.override s).logLevel :=
      Settings.upper_of_mem (level_of_known haccepted (Settings.refusals_eq_nil.mp hnone).2)
    rw [hsettings, hnone, hlevel]
  refine ⟨⟨fun hr => ?_, fun ⟨rejection, herror⟩ => ?_⟩, hok, reread_self hs hplain⟩
  · cases hfaults : Settings.refusals (r.override s).databaseUrl (r.override s).logLevel with
    | nil => exact absurd hfaults (hrefused.mp hr)
    | cons fault rest =>
        rw [hfaults] at hsettings
        exact ⟨_, hsettings⟩
  · by_contra hnot
    rw [hok hnot] at herror
    cases herror

/-- The acting user is chosen in the environment, with blanks around it. -/
def roomyEnvironment : List (String × String) := [("PLUGININFO_ANONYMOUS_USER", " system ")]

/-- A file with a declared setting in small letters, and with two variables that are none. -/
def mixedFile : String := "PLUGININFO_LOG_LEVEL=warning\nPLUGININFO_REGION=eu\nFOO=1\n"

/-- Another database and another level are asked for, and a directory without a name. -/
def inMemory : Request :=
  ⟨none, some "sqlite:///:memory:", some "", some "debug", .list none⟩

/-- The database and the level are those of the command line. All else is as it was read: the user,
who was read without blanks, no directory, and the two variables that belong to no setting. -/
theorem settings_overridden_inMemory :
    ∃ s : Settings, Settings.ofSources (sources roomyEnvironment mixedFile []) = .ok s ∧
      (s.anonymousUser, s.binaryStoragePath, s.logLevel, s.extras.map Prod.fst) =
        ("system", none, "WARNING", ["region", "foo"]) ∧
      (inMemory.settings roomyEnvironment mixedFile).1 =
        .ok { s with databaseUrl := "sqlite:///:memory:", logLevel := "DEBUG" } ∧
      Settings.ofSources (sources roomyEnvironment mixedFile (s.members ++ s.extras.payload)) =
        .ok s := by
  have hknown : (Settings.ofSources (sources roomyEnvironment mixedFile [])).toOption.map
      (fun s => (s.anonymousUser, s.binaryStoragePath, s.logLevel, s.extras.map Prod.fst)) =
        some ("system", none, "WARNING", ["region", "foo"]) := by
    decide +kernel
  cases hs : Settings.ofSources (sources roomyEnvironment mixedFile []) with
  | error rejection =>
      rw [hs] at hknown
      cases hknown
  | ok s =>
      rw [hs] at hknown
      have hread := Option.some.inj hknown
      have hextras : s.extras.map Prod.fst = ["region", "foo"] :=
        congrArg (fun known => known.2.2.2) hread
      have hplain : ∀ name ∈ s.extras.map Prod.fst, name ∉ SettingSources.options := by
        rw [hextras]
        decide
      have hallowed : ¬inMemory.IsRefused := by
        rintro (⟨url, hurl, -, hno⟩ | ⟨level, hlevel, -, hno⟩)
        · cases hurl
          exact hno (by decide +kernel)
        · cases hlevel
          exact hno (by decide +kernel)
      have hupper : Text.upper "debug" = "DEBUG" := by decide +kernel
      have hoverride : inMemory.override s =
          { s with databaseUrl := "sqlite:///:memory:", logLevel := "DEBUG" } := by
        rw [← hupper]
        rfl
      obtain ⟨-, hsettings, hself⟩ := settings_overridden inMemory hs hplain
      exact ⟨s, rfl, hread, hoverride ▸ hsettings hallowed, hself⟩

-- an entry of the file that is called like an option does not come through a second reading
example :
    let file := "_CASE_SENSITIVE=1\n"
    let keys := fun arguments => (Settings.ofSources (sources [] file arguments)).toOption.map
      fun s => (s.members ++ s.extras.payload, s.extras.map Prod.fst)
    (keys []).map Prod.snd = some ["_case_sensitive"] ∧
      ((keys []).bind fun read => keys read.1).map Prod.snd = some ["_CASE_SENSITIVE"] := by
  decide +kernel

end Request

end PluginRegistry.CommandLine
