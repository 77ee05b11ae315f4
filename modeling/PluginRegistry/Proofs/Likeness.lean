import PluginRegistry.Proofs.RecordCodec

/-!
# Bodies that are alike

A body that is alike to the one in place is not written, so what two alike bodies say has to be told
apart from what they may differ in. They may differ in the kind of a number and in the order of
members. They have the same service, and release by release the same version and the same
preference.
-/

namespace PluginRegistry

namespace Json

theorem alike_str {s t : String} (h : (str s).alike (str t) = true) : s = t := by
  rw [alike] at h
  exact of_decide_eq_true h

theorem alike_bool {a b : Bool} (h : (bool a).alike (bool b) = true) : a = b := by
  revert h
  cases a <;> cases b <;> simp [alike, sameNumber, asRatio?]

theorem alike_ofText? {s t : Option String} (h : (ofText? s).alike (ofText? t) = true) : s = t := by
  cases s with
  | none =>
      cases t with
      | none => rfl
      | some t => simp [ofText?, alike, sameNumber, asRatio?] at h
  | some s =>
      cases t with
      | none => simp [ofText?, alike, sameNumber, asRatio?] at h
      | some t => exact congrArg some (alike_str h)

theorem alike_items {xs ys : List Json} (h : (arr xs).alike (arr ys) = true) :
    List.Forall₂ (fun x y => x.alike y = true) xs ys := by
  rw [alike] at h
  -- lists of different lengths are not alike
  induction xs generalizing ys with
  | nil =>
      cases ys with
      | nil => exact .nil
      | cons y ys => rw [alikeItems] at h; cases h; all_goals simp
  | cons x xs ih =>
      cases ys with
      | nil => rw [alikeItems] at h; cases h; all_goals simp
      | cons y ys =>
          rw [alikeItems, Bool.and_eq_true] at h
          exact .cons h.1 (ih h.2)

theorem alike_member {ms ns : List (String × Json)} {key : String} {value : Json}
    (h : (obj ms).alike (obj ns) = true) (hm : (key, value) ∈ ms) :
    ∃ other, ns.lookup key = some other ∧ value.alike other = true := by
  rw [alike, Bool.and_eq_true] at h
  replace h := h.2
  induction ms with
  | nil => cases hm
  | cons m rest ih =>
      obtain ⟨k, v⟩ := m
      -- each member is held against the one under the same key, wherever it stands
      rw [alikeMembers, Bool.and_eq_true] at h
      rcases List.mem_cons.mp hm with he | hm
      · cases he
        cases hl : ns.lookup key with
        | none => rw [hl] at h; exact absurd h.1 (by simp)
        | some other => rw [hl] at h; exact ⟨other, rfl, h.1⟩
      · exact ih hm h.2

end Json

namespace Release

/-- The version with the preference. -/
def mark (r : Release) : String × Bool := (r.version, r.preferred)

/-- What stands under the key of a field is alike. -/
theorem alike_declared {r r' : Release} (h : r.toJson.alike r'.toJson = true) (i : Nat)
    {field : Schema.Field} {value value' : Json} (hvalue : r.members[i]? = some (field, value))
    (hvalue' : r'.members[i]? = some (field, value')) : value.alike value' = true := by
  have hdeclared : (field.key, value) ∈ r.declared :=
    List.mem_map.mpr ⟨_, List.mem_of_getElem? hvalue, rfl⟩
  obtain ⟨other, hother, halike⟩ := Json.alike_member h (List.mem_append_left _ hdeclared)
  cases hother.symm.trans (lookup_declared i hvalue')
  exact halike

theorem mark_of_alike {r r' : Release} (hr : r.preferredAs = none) (hr' : r'.preferredAs = none)
    (h : r.toJson.alike r'.toJson = true) : r.mark = r'.mark := by
  have hversion := alike_declared h 0 rfl rfl
  have hflag := alike_declared h 6 rfl rfl
  rw [statedPreference_payload hr, statedPreference_payload hr'] at hflag
  exact Prod.ext (Json.alike_str hversion) (Json.alike_bool hflag)

/-- Releases that are alike were changed at the same time by the same user. -/
theorem stamp_of_alike {r r' : Release} (h : r.toJson.alike r'.toJson = true) :
    r.lastModified = r'.lastModified ∧ r.lastModifiedBy = r'.lastModifiedBy := by
  have htime := Json.alike_ofText? (alike_declared h 7 rfl rfl)
  refine ⟨?_, Json.alike_ofText? (alike_declared h 8 rfl rfl)⟩
  -- two moments of one text are one moment
  have hread : Function.Injective Moment.text := by
    intro m m' htext
    have hm := Reading.momentOfText_text m
    rw [htext, Reading.momentOfText_text m'] at hm
    exact (Except.ok.inj hm).symm
  exact Option.map_injective hread htime

theorem marks_of_alike {rs rs' : List Release} (hr : ∀ r ∈ rs, r.preferredAs = none)
    (hr' : ∀ r ∈ rs', r.preferredAs = none)
    (h : List.Forall₂ (fun r r' => r.toJson.alike r'.toJson = true) rs rs') :
    rs.map mark = rs'.map mark := by
  induction h with
  | nil => rfl
  | cons h1 _ ih =>
      obtain ⟨ha, hr⟩ := List.forall_mem_cons.mp hr
      obtain ⟨ha', hr'⟩ := List.forall_mem_cons.mp hr'
      rw [List.map_cons, List.map_cons, mark_of_alike ha ha' h1, ih hr hr']

end Release

namespace Plugin

/-- The versions with the preferences, in order. -/
def marks (p : Plugin) : List (String × Bool) := p.releases.map Release.mark

theorem versions_eq_marks (p : Plugin) : p.versions = p.marks.map Prod.fst := by
  unfold versions marks
  rw [List.map_map]
  rfl

theorem marks_restored (p : Plugin) : p.restored.marks = p.marks := by
  unfold marks restored
  rw [List.map_map]
  rfl

/-- Alike bodies have the same text under the key of a field. -/
theorem text_of_alike {p q : Plugin} (h : p.body.alike q.body = true) (i : Nat) {key : String}
    {s t : Option String} (hp : p.bodyMembers[i]? = some (key, .ofText? s))
    (hq : q.bodyMembers[i]? = some (key, .ofText? t)) : s = t := by
  have hmember : (key, Json.ofText? s) ∈ p.bodyMembers ++ p.bodyExtras.payload :=
    List.mem_append_left _ (List.mem_of_getElem? hp)
  obtain ⟨v, hv, hv'⟩ := Json.alike_member h hmember
  cases hv.symm.trans (lookup_bodyMembers i hq)
  exact Json.alike_ofText? hv'

/-- Alike bodies are of the same service. -/
theorem service_of_alike {p q : Plugin} (h : p.body.alike q.body = true) :
    p.service = q.service := text_of_alike h 1 rfl rfl

/-- The releases of alike bodies are alike one by one. -/
theorem releases_of_alike {p q : Plugin} (h : p.body.alike q.body = true) :
    List.Forall₂ (fun r r' => r.toJson.alike r'.toJson = true) p.releases q.releases := by
  have hm : ("releases", Json.arr (p.releases.map Release.toJson))
      ∈ p.bodyMembers ++ p.bodyExtras.payload :=
    List.mem_append_left _ (List.mem_of_getElem? (i := 4) rfl)
  obtain ⟨v, hv, hv'⟩ := Json.alike_member h hm
  rw [lookup_bodyMembers (p := q) (m := ("releases", .arr (q.releases.map Release.toJson))) 4 rfl]
    at hv
  cases hv
  have hitems := Json.alike_items hv'
  rw [List.forall₂_map_left_iff, List.forall₂_map_right_iff] at hitems
  exact hitems

theorem WellFormed.flagged {p : Plugin} (h : p.WellFormed) :
    ∀ r ∈ p.releases, r.preferredAs = none :=
  fun r hr => (h.releases r hr).flagged

/-- Alike bodies have the same versions with the same preferences, in the same order. -/
theorem marks_of_alike {p q : Plugin} (hp : p.WellFormed) (hq : q.WellFormed)
    (h : p.body.alike q.body = true) : p.marks = q.marks :=
  Release.marks_of_alike hp.flagged hq.flagged (releases_of_alike h)

/-- In alike bodies the releases of a version are alike. -/
theorem release?_of_alike {p q : Plugin} (hp : p.WellFormed) (hq : q.WellFormed)
    (h : p.body.alike q.body = true) {version : String} {r : Release}
    (hr : p.release? version = some r) :
    ∃ r', q.release? version = some r' ∧ r.toJson.alike r'.toJson = true := by
  have hflagged := hp.flagged
  have hflagged' := hq.flagged
  have hreleases := releases_of_alike h
  unfold release? at hr ⊢
  generalize p.releases = releases at hr hflagged hreleases
  generalize q.releases = releases' at hflagged' hreleases
  induction hreleases with
  | nil => cases hr
  | @cons first first' rest rest' hfirst _ ih =>
      obtain ⟨hf, hrest⟩ := List.forall_mem_cons.mp hflagged
      obtain ⟨hf', hrest'⟩ := List.forall_mem_cons.mp hflagged'
      have hversion : first.version = first'.version :=
        congrArg Prod.fst (Release.mark_of_alike hf hf' hfirst)
      by_cases hv : first.version = version
      · rw [List.find?_cons_of_pos (by simpa using hv)] at hr
        cases hr
        exact ⟨first', by rw [List.find?_cons_of_pos (by simpa using hversion ▸ hv)], hfirst⟩
      · rw [List.find?_cons_of_neg (by simpa using hv)] at hr
        rw [List.find?_cons_of_neg (by simpa using hversion ▸ hv)]
        exact ih hr hrest hrest'

end Plugin

end PluginRegistry
