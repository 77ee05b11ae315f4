import PluginRegistry.Settings.Basic
import PluginRegistry.Settings.Dotenv

/-!
# Where settings come from

A setting is taken from the first source that has it: the arguments, the variables of the
environment, a file of variables. The case of its name does not count, and variables have the name
of the program in front. Arguments and variables of the file that belong to no declared setting are
kept beside them; other variables of the environment are none of the registry's business.

Some arguments are no settings, but options that say how settings are read. Those for the case of
names, for what variables start with and for the file are followed; the others are taken, and change
nothing here.
-/

namespace PluginRegistry

/-- The sources of settings, in order of their precedence. The file is the usual one. -/
structure SettingSources where
  arguments : List (String × Json)
  environment : List (String × String)
  file : List (String × Option String)

namespace SettingSources

/-! ## Options -/

/-- The names of the options. An argument of such a name is never a setting. -/
def options : List String :=
  ["__pydantic_self__", "_case_sensitive", "_nested_model_default_partial_update", "_env_prefix",
    "_env_prefix_target", "_env_file", "_env_file_encoding", "_env_ignore_empty",
    "_env_nested_delimiter", "_env_nested_max_split", "_env_parse_none_str", "_env_parse_enums",
    "_cli_prog_name", "_cli_parse_args", "_cli_settings_source", "_cli_parse_none_str",
    "_cli_hide_none_type", "_cli_avoid_json", "_cli_enforce_required",
    "_cli_use_class_docs_for_groups", "_cli_exit_on_error", "_cli_prefix",
    "_cli_flag_prefix_char", "_cli_implicit_flags", "_cli_ignore_unknown_args",
    "_cli_kebab_case", "_cli_shortcuts", "_secrets_dir", "_build_sources"]

/-- What the names of variables start with, unless an option says otherwise. -/
def usualLead : String := "PLUGININFO_"

/-- The case of names counts, which it does only if an option says so. -/
def mindsCase (s : SettingSources) : Bool :=
  (s.arguments.lookup "_case_sensitive").any Json.truthy

/-- A name as it is compared. -/
def spelling (s : SettingSources) (name : String) : String :=
  if s.mindsCase then name else Text.lower name

/-- What the names of variables start with, as it is compared. -/
def lead (s : SettingSources) : String :=
  match s.arguments.lookup "_env_prefix" with
  | some (.str text) => s.spelling text
  | _ => s.spelling usualLead

/-- The file of variables is read, unless an option names another file or none. -/
def readsFile (s : SettingSources) : Bool :=
  match s.arguments.lookup "_env_file" with
  | none | some (.str ".env") => true
  | some _ => false

/-! ## Names -/

/-- The first value under a name. -/
def firstOf? {α : Type} (s : SettingSources) (name : String) (entries : List (String × α)) :
    Option α :=
  (entries.find? fun entry => s.spelling entry.1 = name).map (·.2)

/-- The last value under a name. -/
def lastOf? {α : Type} (s : SettingSources) (name : String) (entries : List (String × α)) :
    Option α :=
  s.firstOf? name entries.reverse

/-- The name of a variable without what the names of variables start with. -/
def shortName (s : SettingSources) (name : String) : String :=
  if s.lead.toList.isPrefixOf name.toList then String.ofList (name.toList.drop s.lead.length)
  else name

/-- The variables of the file by their names as they are compared. Of several under one name only
the last counts. -/
def fileByName (s : SettingSources) : List (String × Option String) :=
  if s.readsFile then
    s.file.foldl (fun all entry => putMember (s.spelling entry.1) entry.2 all) []
  else []

/-- The value of a declared setting. -/
def value? (s : SettingSources) (name : String) : Option Json :=
  s.firstOf? name s.arguments <|>
    ((s.lastOf? (s.lead ++ name) s.environment).map Json.str) <|>
    ((s.fileByName.lookup (s.lead ++ name)).join.map Json.str)

/-- The name is that of a declared setting, with or without what variables start with. -/
def isDeclared (s : SettingSources) (name : String) : Bool :=
  Settings.names.contains name || Settings.names.any (s.lead ++ · = name)

/-! ## What is given -/

/-- What is kept after one more variable of the file: nothing new if the variable is empty, belongs
to a declared setting, or has the very name of what is kept already. -/
def keepVariable (s : SettingSources) (kept : List (String × Json)) (name : String)
    (value : Option String) : List (String × Json) :=
  match value with
  | none => kept
  | some text =>
    if text = "" ∨ s.isDeclared name ∨ (kept.lookup name).isSome then kept
    else putMember (s.shortName name) (.str text) kept

/-- The variables of the file that are kept beside the declared settings. -/
def fileExtras (s : SettingSources) : List (String × Json) :=
  s.fileByName.foldl (fun kept entry => s.keepVariable kept entry.1 entry.2) []

/-- The arguments that are kept beside the declared settings. -/
def argumentExtras (s : SettingSources) : List (String × Json) :=
  s.arguments.filter fun entry =>
    !Settings.names.contains (s.spelling entry.1) && !options.contains entry.1

/-- The declared settings that are given, by name. -/
def declared (s : SettingSources) : List (String × Json) :=
  Settings.names.filterMap fun name => (s.value? name).map (name, ·)

/-- All that is given, by name. -/
def given (s : SettingSources) : List (String × Json) :=
  (s.fileExtras ++ s.argumentExtras).foldl (fun all extra => putMember extra.1 extra.2 all)
    s.declared

end SettingSources

/-- The settings that the sources give. -/
def Settings.ofSources (sources : SettingSources) : Except Schema.Rejection Settings :=
  (Settings.ofEntries (Json.toEntries sources.given)).forRecord "Settings"

/-- The settings that are given as arguments only. -/
def Settings.ofArguments (arguments : List (String × Json)) : Except Schema.Rejection Settings :=
  Settings.ofSources ⟨arguments, [], []⟩

end PluginRegistry
