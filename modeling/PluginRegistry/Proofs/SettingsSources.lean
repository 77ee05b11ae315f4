import PluginRegistry.Proofs.CaseMapping
import PluginRegistry.Proofs.JsonValues
import PluginRegistry.Proofs.TextPieces
import PluginRegistry.Settings.Sources

/-!
# Settings given as arguments

Where all declared settings are arguments, the environment counts for nothing, and the file only for
what it has beside the declared settings. That is the same whatever the arguments are, as long as
none of them is an option. So arguments that tell all that was read, the entries of the file
included, give just that.

The names of the file need care. They are kept in small letters and without what variables start
with, and as arguments they are put into small letters again before they are compared with the
declared ones. None of them becomes a declared one by that (`Text.lower_eq_self`).
-/

namespace PluginRegistry

/-! ## Members that are put one after the other -/

section Members

variable {α : Type} {members more : List (String × α)}

/-- Members under new keys come behind those that are there. -/
theorem foldl_putMember_append (h : ((members ++ more).map Prod.fst).Nodup) :
    more.foldl (fun all m => putMember m.1 m.2 all) members = members ++ more := by
  induction more generalizing members with
  | nil => rw [List.foldl_nil, List.append_nil]
  | cons m rest ih =>
      rw [List.append_cons] at h
      have hnew : m.1 ∉ members.map Prod.fst := by
        intro hm
        rw [List.map_append, List.map_append, List.append_assoc, List.nodup_append] at h
        exact h.2.2 m.1 hm m.1 (by simp) rfl
      rw [List.foldl_cons, putMember_of_notMem hnew, ih h, List.append_assoc]
      rfl

theorem putMember_of_mem {m : String × α} (hn : (members.map Prod.fst).Nodup) (hm : m ∈ members) :
    putMember m.1 m.2 members = members := by
  induction members with
  | nil => cases hm
  | cons first rest ih =>
      obtain ⟨hfirst, hrest⟩ := List.nodup_cons.mp hn
      rcases List.mem_cons.mp hm with rfl | hm
      · simp [putMember]
      · have hne : first.1 ≠ m.1 := fun he => hfirst (he ▸ List.mem_map_of_mem hm)
        unfold putMember
        rw [if_neg hne, ih hrest hm]

/-- Members that are there already change nothing. -/
theorem foldl_putMember_of_subset (hn : (members.map Prod.fst).Nodup)
    (h : ∀ m ∈ more, m ∈ members) :
    more.foldl (fun all m => putMember m.1 m.2 all) members = members := by
  induction more with
  | nil => rfl
  | cons m rest ih =>
      obtain ⟨hm, hrest⟩ := List.forall_mem_cons.mp h
      rw [List.foldl_cons, putMember_of_mem hn hm, ih hrest]

end Members

namespace SettingSources

variable {s : SettingSources}

/-! ## Without options -/

/-- No argument is an option. -/
def Plain (s : SettingSources) : Prop := ∀ argument ∈ s.arguments, argument.1 ∉ options

theorem Plain.lookup_eq_none (h : s.Plain) {option : String} (ho : option ∈ options) :
    s.arguments.lookup option = none := by
  rw [List.lookup_eq_none_iff]
  intro argument hargument
  rw [bne_iff_ne]
  rintro rfl
  exact h argument hargument ho

theorem Plain.mindsCase (h : s.Plain) : s.mindsCase = false := by
  unfold SettingSources.mindsCase
  rw [h.lookup_eq_none (by decide)]
  rfl

theorem Plain.spelling (h : s.Plain) (name : String) : s.spelling name = Text.lower name := by
  unfold SettingSources.spelling
  rw [h.mindsCase]
  rfl

theorem Plain.lead (h : s.Plain) : s.lead = "plugininfo_" := by
  have hlower : Text.lower usualLead = "plugininfo_" := by decide
  unfold SettingSources.lead
  rw [h.lookup_eq_none (by decide), h.spelling, hlower]

theorem Plain.readsFile (h : s.Plain) : s.readsFile = true := by
  unfold SettingSources.readsFile
  rw [h.lookup_eq_none (by decide)]

/-- Only options among the arguments make a difference to what is kept of the file. -/
theorem Plain.fileExtras_eq (h : s.Plain) :
    s.fileExtras = (⟨[], s.environment, s.file⟩ : SettingSources).fileExtras := by
  have hnone : (⟨[], s.environment, s.file⟩ : SettingSources).Plain := nofun
  have hspelling : s.spelling = (⟨[], s.environment, s.file⟩ : SettingSources).spelling :=
    funext fun name => (h.spelling name).trans (hnone.spelling name).symm
  unfold fileExtras fileByName keepVariable isDeclared shortName
  rw [hspelling, h.lead, h.readsFile, hnone.lead, hnone.readsFile]

/-! ## What is kept of the file -/

/-- The name is the one of an entry that is kept: it went through lower case, and it is not the name
of a declared setting. -/
structure IsKeptName (name : String) : Prop where
  /-- Its characters are settled. -/
  settled : ∀ c ∈ name.toList, Text.IsSettled Text.unsettledByLower c
  /-- It is not declared. -/
  undeclared : name ∉ Settings.names

theorem small_names : ∀ name ∈ Settings.names,
    Text.Throughout (fun c => 95 ≤ c.toNat ∧ c.toNat ≤ 122) name.toList := by
  decide

theorem lower_of_mem {name : String} (h : name ∈ Settings.names) : Text.lower name = name :=
  Text.lower_of_small (small_names name h)

/-- **No entry that is kept becomes a declared setting in small letters.** -/
theorem IsKeptName.lower {name : String} (h : IsKeptName name) :
    Text.lower name ∉ Settings.names := by
  intro hm
  have hplain : ∀ c ∈ (Text.lower name).toList, Text.IsPlain c := fun c hc =>
    Nat.lt_of_le_of_lt (small_names _ hm c hc).2 (by decide)
  have hsame : Text.lower name = name := Text.lower_eq_self h.settled hplain
  exact h.undeclared (hsame ▸ hm)

/-- The entries of the file that are kept: each is a text under a name of its own. -/
structure KeepsVariables (kept : List (String × Json)) : Prop where
  /-- No name is there twice. -/
  nodup : (kept.map Prod.fst).Nodup
  /-- The names are as they are kept. -/
  names : ∀ name ∈ kept.map Prod.fst, IsKeptName name
  /-- The values are texts. -/
  texts : ∀ m ∈ kept, ∃ text, m.2 = .str text

theorem keepsVariables_nil : KeepsVariables [] where
  nodup := List.nodup_nil
  names _ hname := absurd hname List.not_mem_nil
  texts _ hm := absurd hm List.not_mem_nil

theorem KeepsVariables.putMember {kept : List (String × Json)} {name text : String}
    (h : KeepsVariables kept) (hname : IsKeptName name) :
    KeepsVariables (putMember name (.str text) kept) where
  nodup := nodup_putMember h.nodup
  names key hkey := by
    rcases mem_keys_putMember.mp hkey with rfl | hkey
    · exact hname
    · exact h.names key hkey
  texts := forall_mem_putMember (P := fun value : Json => ∃ text, value = .str text) ⟨text, rfl⟩
    h.texts

/-- A name without what variables start with is kept, unless it is declared. -/
theorem isKeptName_shortName {name : String}
    (hsettled : ∀ c ∈ name.toList, Text.IsSettled Text.unsettledByLower c)
    (hundeclared : s.isDeclared name = false) : IsKeptName (s.shortName name) := by
  unfold isDeclared at hundeclared
  rw [Bool.or_eq_false_iff, List.any_eq_false] at hundeclared
  obtain ⟨hnot, hlead⟩ := hundeclared
  unfold shortName
  split
  · rename_i hprefix
    obtain ⟨rest, hrest⟩ := List.isPrefixOf_iff_prefix.mp hprefix
    have hdrop : name.toList.drop s.lead.length = rest := by
      rw [← hrest, ← String.length_toList, List.drop_left]
    rw [hdrop]
    refine ⟨fun c hc => ?_, fun hdeclared => ?_⟩
    · rw [String.toList_ofList] at hc
      exact hsettled c (hrest ▸ List.mem_append_right _ hc)
    · -- with what variables start with in front it would be declared
      refine hlead _ hdeclared (decide_eq_true ?_)
      rw [← String.toList_inj, String.toList_append, String.toList_ofList, hrest]
  · exact ⟨hsettled, by simpa using hnot⟩

theorem KeepsVariables.keepVariable {kept : List (String × Json)} {name : String}
    {value : Option String} (hkept : KeepsVariables kept)
    (hsettled : ∀ c ∈ name.toList, Text.IsSettled Text.unsettledByLower c) :
    KeepsVariables (s.keepVariable kept name value) := by
  unfold SettingSources.keepVariable
  split
  · exact hkept
  · split
    · exact hkept
    · rename_i hnew
      rw [not_or, not_or] at hnew
      exact hkept.putMember (isKeptName_shortName hsettled (by simpa using hnew.2.1))

theorem Plain.settled_fileByName (h : s.Plain) {entry : String × Option String}
    (hentry : entry ∈ s.fileByName) :
    ∀ c ∈ entry.1.toList, Text.IsSettled Text.unsettledByLower c := by
  have hall : ∀ (file all : List (String × Option String)),
      (∀ name ∈ all.map Prod.fst, ∀ c ∈ name.toList, Text.IsSettled Text.unsettledByLower c) →
      ∀ name ∈ (file.foldl (fun all m => PluginRegistry.putMember (s.spelling m.1) m.2 all)
        all).map Prod.fst, ∀ c ∈ name.toList, Text.IsSettled Text.unsettledByLower c := by
    intro file
    induction file with
    | nil => exact fun _ hall => hall
    | cons m rest ih =>
        intro all hall
        refine ih _ fun name hname => ?_
        rcases mem_keys_putMember.mp hname with rfl | hname
        · rw [h.spelling]
          exact Text.isSettled_lower
        · exact hall name hname
  unfold fileByName at hentry
  rw [h.readsFile, if_pos rfl] at hentry
  exact hall s.file [] nofun entry.1 (List.mem_map_of_mem hentry)

/-- **What is kept of the file is undeclared, whatever is made of its names.** -/
theorem Plain.keepsVariables (h : s.Plain) : KeepsVariables s.fileExtras := by
  have hall : ∀ (entries : List (String × Option String)) (kept : List (String × Json)),
      (∀ entry ∈ entries, ∀ c ∈ entry.1.toList, Text.IsSettled Text.unsettledByLower c) →
      KeepsVariables kept →
      KeepsVariables (entries.foldl (fun kept entry => s.keepVariable kept entry.1 entry.2)
        kept) := by
    intro entries
    induction entries with
    | nil => exact fun _ _ hkept => hkept
    | cons entry rest ih =>
        intro kept hsettled hkept
        obtain ⟨hentry, hrest⟩ := List.forall_mem_cons.mp hsettled
        exact ih _ hrest (hkept.keepVariable hentry)
  exact hall _ [] (fun _ hentry => h.settled_fileByName hentry) keepsVariables_nil

/-! ## What is given -/

/-- The declared settings that are given are under their names, each once. -/
theorem sublist_declared (s : SettingSources) :
    (s.declared.map Prod.fst).Sublist Settings.names := by
  unfold declared
  rw [List.map_filterMap]
  have hsame : ∀ name : String,
      ((s.value? name).map (name, ·)).map Prod.fst = (s.value? name).map fun _ => name := by
    intro name
    cases s.value? name <;> rfl
  induction Settings.names with
  | nil => exact List.Sublist.refl _
  | cons name rest ih =>
      rw [List.filterMap_cons, hsame]
      cases s.value? name with
      | none => exact ih.cons _
      | some value => exact ih.cons_cons _

theorem nodup_names : Settings.names.Nodup := by decide

/-- Entries that are kept stand beside declared ones. -/
theorem KeepsVariables.nodup_append {kept declared : List (String × Json)}
    (h : KeepsVariables kept) (hd : (declared.map Prod.fst).Sublist Settings.names) :
    ((declared ++ kept).map Prod.fst).Nodup := by
  rw [List.map_append, List.nodup_append]
  refine ⟨nodup_names.sublist hd, h.nodup, fun name hname other hother he => ?_⟩
  exact (h.names other hother).undeclared (he ▸ hd.subset hname)

/-- Without arguments the file comes behind the declared settings. -/
theorem given_of_none (environment : List (String × String))
    (file : List (String × Option String)) :
    (⟨[], environment, file⟩ : SettingSources).given =
      (⟨[], environment, file⟩ : SettingSources).declared ++
        (⟨[], environment, file⟩ : SettingSources).fileExtras := by
  have hnone : (⟨[], environment, file⟩ : SettingSources).Plain := nofun
  unfold given
  rw [show (⟨[], environment, file⟩ : SettingSources).argumentExtras = [] from rfl,
    List.append_nil]
  exact foldl_putMember_append (hnone.keepsVariables.nodup_append (sublist_declared _))

/-- The first member under a name is the one of that name, if all of them are in small letters. -/
theorem Plain.firstOf?_append (h : s.Plain) {members rest : List (String × Json)} {name : String}
    (hlower : ∀ m ∈ members, Text.lower m.1 = m.1) (hname : name ∈ members.map Prod.fst) :
    s.firstOf? name (members ++ rest) = members.lookup name := by
  unfold firstOf?
  induction members with
  | nil => cases hname
  | cons m later ih =>
      obtain ⟨hm, hlater⟩ := List.forall_mem_cons.mp hlower
      rw [List.cons_append, List.lookup_cons]
      by_cases he : name = m.1
      · subst he
        have hfirst : s.spelling m.1 = m.1 := (h.spelling m.1).trans hm
        rw [List.find?_cons_of_pos (by simpa using hfirst), beq_self_eq_true]
        rfl
      · have hne : ¬(s.spelling m.1 = name) := by
          rw [h.spelling, hm]
          exact fun hc => he hc.symm
        rw [List.find?_cons_of_neg (by simpa using hne), beq_eq_false_iff_ne.mpr he]
        exact ih hlater (by simpa [he] using hname)

theorem filterMap_lookup {members : List (String × Json)} (h : (members.map Prod.fst).Nodup) :
    (members.map Prod.fst).filterMap (fun name => (members.lookup name).map (name, ·)) =
      members := by
  rw [List.filterMap_map]
  have hsome : ∀ m ∈ members, ((fun name => (members.lookup name).map (name, ·)) ∘ Prod.fst) m =
      some m := by
    intro m hm
    rw [Function.comp_apply, Json.lookup_of_mem h hm]
    rfl
  rw [List.filterMap_congr hsome, List.filterMap_some]

/-- **All declared settings as arguments, with what is kept of the file, are what is given.** -/
theorem given_of_members {members kept : List (String × Json)}
    (hnames : members.map Prod.fst = Settings.names) (hargs : s.arguments = members ++ kept)
    (hkept : kept = (⟨[], s.environment, s.file⟩ : SettingSources).fileExtras)
    (hplain : ∀ name ∈ kept.map Prod.fst, name ∉ options) : s.given = members ++ kept := by
  have hlower : ∀ m ∈ members, Text.lower m.1 = m.1 := fun m hm =>
    lower_of_mem (hnames ▸ List.mem_map_of_mem hm)
  have hnone : (⟨[], s.environment, s.file⟩ : SettingSources).Plain := nofun
  have hkeeps : KeepsVariables kept := hkept ▸ hnone.keepsVariables
  have hs : s.Plain := by
    intro argument hargument
    rw [hargs] at hargument
    rcases List.mem_append.mp hargument with hm | hm
    · have hall : ∀ name ∈ Settings.names, name ∉ options := by decide
      exact hall _ (hnames ▸ List.mem_map_of_mem hm)
    · exact hplain _ (List.mem_map_of_mem hm)
  have hnodup : ((members ++ kept).map Prod.fst).Nodup :=
    hkeeps.nodup_append (hnames ▸ List.Sublist.refl _)
  have hdeclared : s.declared = members := by
    have hvalue : ∀ name ∈ Settings.names,
        (s.value? name).map (name, ·) = (members.lookup name).map (name, ·) := by
      intro name hname
      have hfirst : s.firstOf? name s.arguments = members.lookup name := by
        rw [hargs]
        exact hs.firstOf?_append hlower (hnames ▸ hname)
      obtain ⟨m, hm, rfl⟩ := List.mem_map.mp (hnames ▸ hname : name ∈ members.map Prod.fst)
      unfold value?
      -- an argument is there, so the variables are not asked for
      rw [hfirst, Json.lookup_of_mem (hnames ▸ nodup_names) hm]
      rfl
    unfold declared
    rw [List.filterMap_congr hvalue, ← hnames]
    exact filterMap_lookup (hnames ▸ nodup_names)
  have hextras : s.argumentExtras = kept := by
    unfold argumentExtras
    rw [hargs, List.filter_append, List.filter_eq_nil_iff.mpr, List.filter_eq_self.mpr,
      List.nil_append]
    · intro m hm
      have hname := List.mem_map_of_mem (f := Prod.fst) hm
      simp [hs.spelling, (hkeeps.names m.1 hname).lower, hplain m.1 hname]
    · intro m hm
      have hname : m.1 ∈ Settings.names := hnames ▸ List.mem_map_of_mem hm
      simp [hs.spelling, hlower m hm, hname]
  unfold given
  rw [hdeclared, hextras, hs.fileExtras_eq, ← hkept, List.foldl_append,
    foldl_putMember_append hnodup]
  exact foldl_putMember_of_subset hnodup fun m hm => List.mem_append_right _ hm

end SettingSources

end PluginRegistry
