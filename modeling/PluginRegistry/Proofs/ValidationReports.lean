import PluginRegistry.Proofs.ReleaseAcceptance
import PluginRegistry.Proofs.RequirementGrammar

/-!
# What a validation reports

All that is wrong with a record, told without the rules: the places of the releases without a
version, the versions that several releases have, in order of the first of them, an id that is not
qualified, and the entries of requirements that spell none, release by release. The rules go over
the record in loops of their own; they count the versions first and take the repeated ones from the
counts, and they look at the entries of a release one by one only if fewer can be read than there
are. None of it makes a difference: the report of all rules is that list, and a record is refused
exactly if the list is not empty.

Rules do not see what others have objected to. A pass that only appends to what it is handed adds
the same violations whatever they were, so that the passes of any rules, made one after the other,
give their own reports one after the other.
-/

namespace PluginRegistry

/-! ## What is wrong with a record -/

namespace Requirement

/-- Without the blanks around it the entry spells a requirement. -/
def IsSpelled (entry : String) : Prop := ∃ s : Spelling, s.chars = Text.trim entry.toList

theorem isSpelled_iff {entry : String} : IsSpelled entry ↔ (parse? entry).isSome := by
  unfold IsSpelled parse?
  rw [Option.isSome_iff_exists]
  constructor
  · rintro ⟨s, hs⟩
    exact ⟨s.requirement, ofChars?_eq_some.mpr ⟨s, hs, rfl⟩⟩
  · rintro ⟨r, hr⟩
    obtain ⟨s, hs, _⟩ := ofChars?_eq_some.mp hr
    exact ⟨s, hs⟩

instance : DecidablePred IsSpelled := fun _ => decidable_of_iff _ isSpelled_iff.symm

end Requirement

instance : DecidablePred Validator.IsNearlyQualified :=
  fun _ => decidable_of_iff _ Validator.isCanonicalId_iff

namespace Release

/-- The entries between the commas of the requirements that are neither blank nor well formed. -/
def unspelled (r : Release) : List String :=
  ((Text.split ',' (r.requires.getD "")).map Text.trimmed).filter fun entry =>
    entry ≠ "" ∧ ¬Requirement.IsSpelled entry

end Release

namespace Plugin

/-- The releases without a version, by their places. -/
def unversioned (p : Plugin) : List Violation :=
  (p.releases.zipIdx.filter fun placed => placed.1.version = "").map fun placed =>
    .emptyVersion placed.2

/-- The versions that several releases have, in order of the first of them, with their number. -/
def clashing (p : Plugin) : List Violation :=
  ((p.versions.filter (· ≠ "")).eraseDups.filter fun v => 1 < p.versions.count v).map fun v =>
    .repeatedVersion v (p.versions.count v)

/-- The id, unless it is qualified. -/
def misnamed (p : Plugin) : List Violation :=
  if Validator.IsNearlyQualified p.id then [] else [.idFormat p.id]

/-- The malformed entries of the requirements, release by release. -/
def misspelled (p : Plugin) : List Violation :=
  p.releases.zipIdx.flatMap fun placed =>
    placed.1.unspelled.map fun entry => .requirement placed.2 entry placed.1.version

/-- **All that is wrong with a record.** -/
def objections (p : Plugin) : List Violation :=
  p.unversioned ++ p.clashing ++ p.misnamed ++ p.misspelled

end Plugin

/-! ## The reports of the rules -/

namespace Validator

theorem emptyVersions_eq (releases : List Release) (index : Nat) :
    emptyVersions index releases =
      ((releases.zipIdx index).filter fun placed => placed.1.version = "").map fun placed =>
        .emptyVersion placed.2 := by
  induction releases generalizing index with
  | nil => rfl
  | cons r rest ih =>
      rw [List.zipIdx_cons, emptyVersions, ih]
      by_cases hr : r.version = ""
      · rw [if_pos hr, List.filter_cons_of_pos (by simpa using hr)]
        rfl
      · rw [if_neg hr, List.filter_cons_of_neg (by simpa using hr)]

theorem malformedEntries_eq_unspelled (r : Release) : malformedEntries r = r.unspelled := by
  have hlisted : ∀ list : String,
      (Requirement.entries list).filter (fun entry => (Requirement.parse? entry).isNone) =
        ((Text.split ',' list).map Text.trimmed).filter fun entry =>
          entry ≠ "" ∧ ¬Requirement.IsSpelled entry := by
    intro list
    unfold Requirement.entries
    rw [List.filter_filter]
    refine List.filter_congr fun entry _ => ?_
    rw [Bool.eq_iff_iff]
    simp [Requirement.isSpelled_iff, and_comm]
  rw [malformedEntries_eq]
  unfold Release.requirementEntries Release.unspelled
  cases r.requires with
  | none => rw [Option.getD_none, ← hlisted]; rfl
  | some list => exact hlisted list

theorem malformedRequirements_eq (releases : List Release) (index : Nat) :
    malformedRequirements index releases =
      (releases.zipIdx index).flatMap fun placed =>
        placed.1.unspelled.map fun entry => .requirement placed.2 entry placed.1.version := by
  induction releases generalizing index with
  | nil => rfl
  | cons r rest ih =>
      rw [List.zipIdx_cons, List.flatMap_cons, malformedRequirements, ih,
        malformedEntries_eq_unspelled]

theorem canonicalId_check_eq (p : Plugin) : canonicalId.check p = p.misnamed := by
  unfold canonicalId Plugin.misnamed
  dsimp only
  by_cases hid : IsNearlyQualified p.id
  · rw [if_pos (isCanonicalId_iff.mpr hid), if_pos hid]
  · rw [if_neg fun h => hid (isCanonicalId_iff.mp h), if_neg hid]

/-- All rules together report all that is wrong. -/
theorem report_all (p : Plugin) : (report all p).violations = p.objections := by
  have hversions : uniqueVersions.check p = p.unversioned ++ p.clashing :=
    congrArg₂ _ (emptyVersions_eq p.releases 0) (repeatedVersions_eq p.versions)
  have hrequirements : requirementFormat.check p = p.misspelled :=
    malformedRequirements_eq p.releases 0
  show uniqueVersions.check p ++ (canonicalId.check p ++ (requirementFormat.check p ++ [])) = _
  rw [hversions, canonicalId_check_eq, hrequirements, List.append_nil, ← List.append_assoc]
  rfl

/-! ## One rule after the other -/

/-- The pass only appends what the rule objects to, whatever was objected to before. -/
def Appends (rule : Validator) (p : Plugin) (pass : List Violation → List Violation) : Prop :=
  ∀ before, pass before = before ++ rule.check p

/-- The passes add up to the reports of their own. -/
theorem foldl_passes {rules : List Validator} {p : Plugin}
    {passes : List (List Violation → List Violation)}
    (h : List.Forall₂ (fun rule pass => rule.Appends p pass) rules passes)
    (before : List Violation) :
    passes.foldl (fun before pass => pass before) before =
      before ++ passes.flatMap fun pass => pass [] := by
  induction h generalizing before with
  | nil => exact (List.append_nil before).symm
  | cons happends _ ih =>
      -- the pass is made twice: after those before it, and alone
      rw [List.foldl_cons, ih, List.flatMap_cons, happends, happends, List.nil_append,
        List.append_assoc]

theorem report_eq_passes {rules : List Validator} {p : Plugin}
    {passes : List (List Violation → List Violation)}
    (h : List.Forall₂ (fun rule pass => rule.Appends p pass) rules passes) :
    report rules p = ⟨p.id, passes.flatMap fun pass => pass []⟩ := by
  have hreports : rules.flatMap (·.check p) = passes.flatMap fun pass => pass [] := by
    induction h with
    | nil => rfl
    | cons happends _ ih => rw [List.flatMap_cons, List.flatMap_cons, ih, happends, List.nil_append]
  unfold report
  rw [hreports]

end Validator

/-! ## How a validation ends -/

namespace Registry

variable {σ : Type}

/-- **A validation ends by these violations**: it goes through if there is none, and else it is
refused with exactly these. -/
structure EndsBy (r : Registry σ) (p : Plugin) (violations : List Violation) : Prop where
  /-- Without violations nothing happens. -/
  accepted : violations = [] → ∀ w, (r.validate p).start w = (.ok (), w)
  /-- With violations the error carries all of them, and nothing changes. -/
  refused : violations ≠ [] → ∀ w, ∃ w', w.Kept w' ∧
    (r.validate p).start w = (.error (.error (.validation ⟨p.id, violations⟩)), w')

theorem endsBy_report (r : Registry σ) (p : Plugin) :
    r.EndsBy p (Validator.report r.validators p).violations where
  accepted h := validate_of_accepts h
  refused h := validate_of_not_accepts h

/-- **Validation reports are complete, exact and in order.** With all rules, a record is refused
exactly if something is wrong with it, and then with all that is wrong with it. With any rules that
only append, each in a pass of its own over what those before it have reported, it is refused with
what they report alone, one after the other. -/
theorem validation_reports (p : Plugin) :
    (∀ r : Registry σ, r.validators = Validator.all → r.EndsBy p p.objections) ∧
    ∀ (r : Registry σ) (passes : List (List Violation → List Violation)),
      List.Forall₂ (fun rule pass => rule.Appends p pass) r.validators passes →
      passes.foldl (fun before pass => pass before) [] = passes.flatMap (fun pass => pass []) ∧
      r.EndsBy p (passes.flatMap fun pass => pass []) := by
  constructor
  · intro r hr
    have hends := r.endsBy_report p
    rwa [hr, Validator.report_all] at hends
  · intro r passes hpasses
    have hends := r.endsBy_report p
    rw [Validator.report_eq_passes hpasses] at hends
    exact ⟨Validator.foldl_passes hpasses [], hends⟩

/-- A record in which everything is wrong: a version is missing and one is there twice, the id has
no namespace, and an entry that spells no requirement is given twice. -/
def crooked : Plugin :=
  .bare "acme" [{ Release.bare "1.0.0" false with requires := some "orca>=7.0.0, orca>7,, orca>7" },
    .bare "" false, .bare "1.0.0" false]

/-- The rules, each as the pass that it makes over that record. -/
def crookedPasses : List (List Violation → List Violation) :=
  Validator.all.map fun rule before => before ++ rule.check crooked

/-- It is refused with all five violations, and the passes of the rules add up to as many. -/
theorem validation_reports_crooked :
    crooked.objections.map Violation.code =
      ["pluginInfo.releases.emptyVersion", "pluginInfo.releases.duplicateVersion",
        "pluginInfo.id.invalidFormat", "pluginInfo.releases.invalidRequires",
        "pluginInfo.releases.invalidRequires"] ∧
    crooked.objections.map Violation.field =
      [some "releases[1].version", some "releases", some "id", some "releases[0].requires",
        some "releases[0].requires"] ∧
    (∃ w', (strict.validate crooked).start published =
      (.error (.error (.validation ⟨"acme", crooked.objections⟩)), w')) ∧
    (crookedPasses.foldl (fun before pass => pass before) []).length = 5 := by
  obtain ⟨hall, hpasses⟩ := @validation_reports Unit crooked
  have hcodes : crooked.objections.map Violation.code =
      ["pluginInfo.releases.emptyVersion", "pluginInfo.releases.duplicateVersion",
        "pluginInfo.id.invalidFormat", "pluginInfo.releases.invalidRequires",
        "pluginInfo.releases.invalidRequires"] := by decide +kernel
  have hsome : crooked.objections ≠ [] := by
    intro hnone
    rw [hnone] at hcodes
    cases hcodes
  have happend : List.Forall₂ (fun rule pass => rule.Appends crooked pass) strict.validators
      crookedPasses :=
    .cons (fun _ => rfl) (.cons (fun _ => rfl) (.cons (fun _ => rfl) .nil))
  obtain ⟨w', _, hrefused⟩ := (hall strict rfl).refused hsome published
  refine ⟨hcodes, by decide +kernel, ⟨w', hrefused⟩, ?_⟩
  rw [(hpasses strict crookedPasses happend).1]
  decide +kernel

end Registry

end PluginRegistry
