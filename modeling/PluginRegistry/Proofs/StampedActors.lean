import PluginRegistry.Proofs.AuditStamps
import PluginRegistry.Proofs.BindingBlocks

/-!
# Who is stamped on a release

A call that changes a release stamps it with the user that is named in the call, else with the user
of the innermost block around the call, else with nobody known. An empty name counts as none, and an
empty user of the innermost block hides those of the blocks around it. So it is for every call that
a program makes, whatever was thrown and handled before, since the program goes as if the user was
handed down (`Program.run_eq_eval`), and since every call leaves a sound state.
-/

namespace PluginRegistry

variable {σ : Type}

/-! ## The rule -/

namespace Identity

/-- Who acts: the user that is named, else the one in scope, else nobody known. -/
def whoActs (anonymous : String) (named scope : Option String) : String :=
  match named.filter (· ≠ ""), scope.filter (· ≠ "") with
  | some name, _ => name
  | none, some user => user
  | none, none => anonymous

theorem actorAt_boundTo (r : Registry σ) (named scope : Option String) (asked : Nat) :
    (r.boundTo scope).actorAt named asked = whoActs r.anonymousUser named scope := by
  show choose r.anonymousUser [named, scope] = _
  unfold choose whoActs
  rw [List.findSome?_cons]
  cases named.filter (· ≠ "") with
  | some name => rfl
  | none =>
      rw [List.findSome?_cons]
      cases scope.filter (· ≠ "") with
      | some user => rfl
      | none => rfl

end Identity

/-! ## The release that is written -/

/-- The release bears the stamp. -/
structure Release.SignedBy (r : Release) (stamp : Stamp) : Prop where
  /-- It bears the time. -/
  moment : r.lastModified = some (.utc stamp.time)
  /-- It bears the user. -/
  user : r.lastModifiedBy = some stamp.actor

theorem Release.Bears.signedBy {r : Release} {d : Deed} {version : String}
    (h : r.Bears ⟨version, .change d⟩) : r.SignedBy d.stamp := ⟨h.moment, h.user⟩

theorem Release.signedBy_stamped (r : Release) (stamp : Stamp) : (r.stamped stamp).SignedBy stamp :=
  ⟨rfl, rfl⟩

/-- The release that the operation writes, in a record that it left: the last one if it is new, and
else the first one of its version. -/
def Operation.written? (p : Plugin) : Operation → Option Release
  | .createRelease _ _ _ => p.releases.getLast?
  | .upsertRelease _ release _ => p.release? release.version
  | .preferRelease _ (.str version) _ _ => p.release? version
  | _ => none

/-- The release that the operation writes, in what it gives. -/
def Answer.written? (op : Operation) : Answer → Option Release
  | .plugin p => op.written? p
  | .release r => some r
  | .plugins _ | .done => none

namespace Imprint

variable {d : Deed} {version : String} {preferred : Bool} {imprints : List Imprint}

theorem find?_put (d : Deed) (version : String) (imprints : List Imprint) :
    (put d version imprints).find? (·.version = version) = some ⟨version, .change d⟩ := by
  induction imprints with
  | nil => simp [put]
  | cons i rest ih =>
      unfold put
      split
      · exact List.find?_cons_of_pos (by simp)
      · rename_i hother
        rw [List.find?_cons_of_neg (by simpa using hother), ih]

/-- What settles is of another version. -/
theorem find?_settle (d : Deed) (version : String) (preferred : Bool) (imprints : List Imprint) :
    (settle d version preferred imprints).find? (·.version = version) =
      imprints.find? (·.version = version) := by
  unfold settle
  split
  · induction imprints with
    | nil => rfl
    | cons i rest ih =>
        rw [List.map_cons]
        by_cases hi : i.version = version
        · rw [if_pos hi, List.find?_cons_of_pos (by simpa using hi),
            List.find?_cons_of_pos (by simpa using hi)]
        · rw [if_neg hi, List.find?_cons_of_neg (by simpa using hi),
            List.find?_cons_of_neg (by simpa using hi), ih]
  · rfl

theorem settle_concat (d : Deed) (version : String) (preferred : Bool) (imprints : List Imprint) :
    settle d version preferred (imprints ++ [⟨version, .change d⟩]) =
      settle d version preferred imprints ++ [⟨version, .change d⟩] := by
  unfold settle
  split
  · rw [List.map_append, List.map_singleton, if_pos rfl]
  · rfl

/-- What the releases bear before anything is known of them is what they say. -/
def own (d : Deed) (releases : List Release) : List Imprint :=
  releases.map fun r => ⟨r.version, .document d r⟩

theorem bears_own (d : Deed) (releases : List Release) :
    List.Forall₂ Release.Bears releases (own d releases) := by
  unfold own
  rw [List.forall₂_map_right_iff, List.forall₂_same]
  exact fun r _ => ⟨rfl, rfl, rfl⟩

/-- A change of a release leaves its own stamp, or what was there. -/
theorem mem_follow_of_changesRelease {i : Imprint} (hd : d.operation.changesRelease = true)
    (h : i ∈ follow imprints d) : i ∈ imprints ∨ i.origin = .change d := by
  rcases mem_follow h with h | ⟨hdeed, hgenuine⟩
  · exact .inl h
  · subst hdeed
    obtain ⟨_, origin⟩ := i
    cases origin with
    | change d => exact .inr rfl
    | document d release =>
        -- a document comes in by an upsert, which changes no release
        obtain ⟨_, candidate, hupsert, _⟩ := hgenuine
        have hnone : d.operation.changesRelease = false := by
          rw [hupsert]
          rfl
        exact absurd (hnone.symm.trans hd) Bool.false_ne_true

end Imprint

namespace Release

variable {releases : List Release} {imprints : List Imprint} {r : Release} {i : Imprint}

theorem exists_imprint (h : List.Forall₂ Bears releases imprints) (hr : r ∈ releases) :
    ∃ i ∈ imprints, r.Bears i := by
  induction h with
  | nil => cases hr
  | @cons r' i' rest rest' hb _ ih =>
      rcases List.mem_cons.mp hr with rfl | hr
      · exact ⟨i', List.mem_cons_self, hb⟩
      · obtain ⟨i, hi, hbears⟩ := ih hr
        exact ⟨i, List.mem_cons_of_mem _ hi, hbears⟩

/-- The first release of a version bears the first imprint of it. -/
theorem find?_of_bears {version : String} (h : List.Forall₂ Bears releases imprints)
    (hi : imprints.find? (·.version = version) = some i) :
    ∃ r, releases.find? (·.version = version) = some r ∧ r.Bears i := by
  induction h with
  | nil => cases hi
  | @cons r' i' rest rest' hb _ ih =>
      by_cases hversion : i'.version = version
      · rw [List.find?_cons_of_pos (by simpa using hversion)] at hi
        cases hi
        exact ⟨r', List.find?_cons_of_pos (by simpa using hb.version.trans hversion), hb⟩
      · rw [List.find?_cons_of_neg (by simpa using hversion)] at hi
        obtain ⟨r, hr, hbears⟩ := ih hi
        refine ⟨r, ?_, hbears⟩
        rwa [List.find?_cons_of_neg (by simpa [hb.version] using hversion)]

theorem getLast?_of_bears (h : List.Forall₂ Bears releases (imprints ++ [i])) :
    ∃ r, releases.getLast? = some r ∧ r.Bears i := by
  rw [← List.forall₂_reverse_iff, List.reverse_append] at h
  rw [List.getLast?_eq_head?_reverse]
  generalize releases.reverse = reversed at h
  cases h with
  | cons hb _ => exact ⟨_, rfl, hb⟩

end Release

namespace Operation

/-- **The release that is written bears the stamp**, wherever the releases bear what follows from
the deed. -/
theorem written_of_bears {d : Deed} {imprints : List Imprint} {q : Plugin}
    (hd : d.operation.changesRelease = true) (hop : d.operation.Proper)
    (h : List.Forall₂ Release.Bears q.releases (Imprint.follow imprints d)) :
    ∃ release, d.operation.written? q = some release ∧ release.SignedBy d.stamp := by
  obtain ⟨stamp, op, succeeded⟩ := d
  cases op with
  | createRelease id release user =>
      have hfollow : Imprint.follow imprints ⟨stamp, .createRelease id release user, succeeded⟩ =
          _ ++ [⟨release.version, .change _⟩] := Imprint.settle_concat _ _ _ _
      rw [hfollow] at h
      obtain ⟨r, hr, hbears⟩ := Release.getLast?_of_bears h
      exact ⟨r, hr, hbears.signedBy⟩
  | upsertRelease id release user =>
      obtain ⟨r, hr, hbears⟩ := Release.find?_of_bears h
        ((Imprint.find?_settle _ _ _ _).trans (Imprint.find?_put _ _ _))
      exact ⟨r, hr, hbears.signedBy⟩
  | preferRelease id version preference user =>
      obtain ⟨⟨version, rfl⟩, _⟩ := hop
      obtain ⟨r, hr, hbears⟩ := Release.find?_of_bears h
        ((Imprint.find?_settle _ _ _ _).trans (Imprint.find?_put _ _ _))
      exact ⟨r, hr, hbears.signedBy⟩
  | _ => cases hd

/-- What an operation that changes a release leaves of the stamps, in the record that is found and
in what it gives. -/
structure Signs (op : Operation) (stamp : Stamp) (old found : Plugin) (answer : Answer) : Prop where
  /-- The release that is written bears the stamp. -/
  written : ∃ release, op.written? found = some release ∧ release.SignedBy stamp
  /-- So does the one that is given. -/
  given : ∃ release, answer.written? op = some release ∧ release.SignedBy stamp
  /-- Every other one bears it as well, or else what a release of that version bore before. -/
  others : ∀ release ∈ found.releases, release.SignedBy stamp ∨
    ∃ before ∈ old.releases, before.version = release.version ∧
      before.lastModified = release.lastModified ∧ before.lastModifiedBy = release.lastModifiedBy

/-- A change of a release signs with its own stamp. -/
theorem signs_of_revision? {op : Operation} {stamp : Stamp} {row row' : Row} {p q : Plugin}
    {answer : Answer} (hchanges : op.changesRelease = true) (hop : op.Proper)
    (hrevision : op.revision? stamp (p.timed row) = some q)
    (hreply : op.reply? stamp row p q = some answer) :
    op.Signs stamp (p.timed row) ((p.overwrittenBy q).timed row') answer := by
  let d : Deed := ⟨stamp, op, true⟩
  have hq : List.Forall₂ Release.Bears q.releases
      (Imprint.follow (Imprint.own d p.releases) d) :=
    bears_of_revision? (d := d) hop hrevision (Imprint.bears_own d p.releases)
  have hfound : List.Forall₂ Release.Bears (p.overwrittenBy q).releases
      (Imprint.follow (Imprint.own d p.releases) d) := Plugin.bears_overwrittenBy hq
  refine ⟨?_, ?_, fun release hmem => ?_⟩
  · exact written_of_bears (d := d) (q := (p.overwrittenBy q).timed row') hchanges hop hfound
  · cases op with
    | createRelease id release user =>
        cases hreply
        exact written_of_bears (d := d) (q := q.timed _) rfl hop hq
    | upsertRelease id release user =>
        cases hreply
        exact written_of_bears (d := d) (q := q.timed _) rfl hop hq
    | preferRelease id version preference user =>
        obtain ⟨⟨version, rfl⟩, _⟩ := hop
        obtain ⟨release, _, rfl⟩ := Option.map_eq_some_iff.mp hreply
        exact ⟨_, rfl, Release.signedBy_stamped _ stamp⟩
    | _ => cases hchanges
  · obtain ⟨⟨version, origin⟩, hi, hbears⟩ := Release.exists_imprint hfound hmem
    rcases Imprint.mem_follow_of_changesRelease hchanges hi with hown | horigin
    · obtain ⟨before, hbefore, he⟩ := List.mem_map.mp hown
      cases he
      exact .inr ⟨before, hbefore, hbears.version.symm, hbears.moment.symm, hbears.user.symm⟩
    · cases horigin
      exact .inl hbears.signedBy

end Operation

/-! ## Calls and programs -/

namespace Identity

/-- The call signs by the rule, if it changes a release and succeeds. -/
def Served.SignsByRule (anonymous : String) (s : Served σ) : Prop :=
  s.call.operation.changesRelease = true → ∀ answer, s.answer = .ok answer →
    ∃ id old found, s.call.operation.target? = some id ∧ s.before.plugin? id = some old ∧
      s.after.plugin? id = some found ∧
      s.call.operation.Signs ⟨s.call.now, whoActs anonymous s.call.operation.user? s.scope⟩
        old found answer

/-- What the rules of scoping say of a sight. -/
def Sight.Lawful (anonymous : String) : Sight σ → Prop
  | .served s => s.SignsByRule anonymous
  | .left before after => after = before
  | .user _ | .mark _ => True

namespace Program

/-- Every call is given arguments of the kinds that are asked for. -/
def Proper : Program σ → Prop
  | .call c => c.operation.Proper
  | .given next => ∀ seen, (next seen).Proper
  | .seq first second => first.Proper ∧ second.Proper
  | .within _ body => body.Proper
  | .attempt body handler => body.Proper ∧ ∀ thrown, (handler thrown).Proper
  | .done | .throw _ | .ask | .mark _ => True

end Program

/-- The state is sound, and what was seen so far is lawful. -/
structure Stage.Lawful (anonymous : String) (stage : Stage σ) : Prop where
  /-- Every row of the table keeps a record. -/
  sound : stage.world.Sound
  /-- What was seen is lawful. -/
  seen : ∀ sight ∈ stage.seen, sight.Lawful anonymous

variable {anonymous : String} {r : Registry σ} {stage : Stage σ}

theorem Stage.Lawful.see {sight : Sight σ} (h : stage.Lawful anonymous)
    (hsight : sight.Lawful anonymous) : (stage.see sight).Lawful anonymous := by
  refine ⟨h.sound, fun s hs => ?_⟩
  rcases List.mem_append.mp hs with hs | hs
  · exact h.seen s hs
  · cases List.mem_singleton.mp hs
    exact hsight

/-- Every call signs by the rule. -/
theorem signsByRule_serve (r : Registry σ) (scope : Option String) {c : Call} {w : World σ}
    (hop : c.operation.Proper) (hs : w.Sound) :
    Served.SignsByRule r.anonymousUser
      ⟨scope, c, w, ((r.boundTo scope).answer c w).1, ((r.boundTo scope).answer c w).2⟩ := by
  intro hchanges answer hanswer
  have hstart : ((r.boundTo scope).perform c.now c.operation).start w =
      (.ok answer, ((r.boundTo scope).answer c w).2) := Prod.ext hanswer rfl
  obtain ⟨hreply, _⟩ := Registry.perform_replies hs hop hstart
  generalize ((r.boundTo scope).answer c w).2 = w' at hreply
  obtain ⟨now, op⟩ := c
  cases hreply with
  | unchanged htarget _ =>
      cases op with
      | createRelease _ _ _ | upsertRelease _ _ _ | preferRelease _ _ _ _ => cases htarget
      | _ => cases hchanges
  | made _ _ _ => cases hchanges
  | removed _ => cases hchanges
  | @revised op answer id row p q stamp htarget hstamp hrevision _ hq hrewritten hreply hactor =>
      obtain ⟨row', hrow', hkept, _⟩ := hrewritten.after
      rw [actorAt_boundTo] at hactor
      obtain ⟨time, actor⟩ := stamp
      cases hstamp
      cases hactor
      exact ⟨id, p.timed row, _, htarget, World.plugin?_of_row hrewritten.before hrewritten.held,
        World.plugin?_of_row hrow' hkept,
        Operation.signs_of_revision? hchanges hop hrevision hreply⟩

theorem Stage.Lawful.serve (scope : Option String) {c : Call} (hop : c.operation.Proper)
    (h : stage.Lawful r.anonymousUser) : (serve r scope c stage).2.Lawful r.anonymousUser := by
  have hafter : Stage.Lawful r.anonymousUser
      ⟨((r.boundTo scope).answer c stage.world).2, stage.seen⟩ :=
    ⟨Registry.sound_answer _ hop h.sound, h.seen⟩
  exact hafter.see (signsByRule_serve r scope hop h.sound)

namespace Program

/-- **Every program is lawful where the user is handed down.** -/
theorem lawful_eval {p : Program σ} (hp : p.Proper) (scope : Option String)
    (h : stage.Lawful r.anonymousUser) : (p.eval r stage scope).2.Lawful r.anonymousUser := by
  induction p generalizing stage scope with
  | done => exact h
  | throw thrown => exact h
  | ask => exact h.see trivial
  | mark text => exact h.see trivial
  | call c => exact h.serve scope hp
  | given next ih => exact ih stage.seen (hp stage.seen) scope h
  | seq first second ihfirst ihsecond =>
      have hfirst := ihfirst hp.1 scope h
      unfold eval
      generalize first.eval r stage scope = ended at hfirst
      obtain ⟨_ | thrown, stage₁⟩ := ended
      · exact ihsecond hp.2 scope hfirst
      · exact hfirst
  | within user body ih =>
      -- the user of the block is in scope in its body, and gone behind it
      exact (ih hp user h).see rfl
  | attempt body handler ihbody ihhandler =>
      have hbody := ihbody hp.1 scope h
      unfold eval
      generalize body.eval r stage scope = ended at hbody
      obtain ⟨_ | thrown, stage₁⟩ := ended
      · exact hbody
      · exact ihhandler thrown (hp.2 thrown) scope hbody

/-- **Who acts is told by the blocks around a call.** A program that runs with the variable goes as
if the user was handed down. Behind it and behind each of its blocks the user from before is bound
again, and every call that changes a release stamps it by the rule: with the user that is named,
else the one of the innermost block, else nobody known. -/
theorem acts_by_scope {r₀ r : Registry σ} {p : Program σ} (hp : p.Proper) {w : World σ}
    (hw : r₀.Reached w) {slot : Slot} (hslot : slot.Fresh) :
    ∃ thrown? stage slot', p.run r ⟨w, []⟩ slot = ((thrown?, stage), slot') ∧
      p.eval r ⟨w, []⟩ slot.current = (thrown?, stage) ∧ slot'.current = slot.current ∧
      ∀ sight ∈ stage.seen, sight.Lawful r.anonymousUser := by
  obtain ⟨slot', hrun, hbalanced⟩ := run_eq_eval r p ⟨w, []⟩ hslot
  have hstart : Stage.Lawful r.anonymousUser ⟨w, []⟩ := ⟨hw.sound, fun _ hs => by cases hs⟩
  exact ⟨_, _, slot', hrun, rfl, hbalanced.current, (lawful_eval hp slot.current hstart).seen⟩

/-- A new release of a plugin, with nothing told of it but its version. -/
def making (second : Nat) (version : String) (user : Option String) : Program Unit :=
  .call ⟨.early second, .createRelease "acme.a" (.bare version false) user⟩

/-- A program of nested blocks. In the innermost one, which binds an empty user, a release is made
and something is thrown. It is handled two blocks further out, where one more release is made. In
the end one is made by somebody who is named. -/
def nested : Program Unit :=
  .within (some "outer")
    (.seq
      (.attempt
        (.within (some "inner")
          (.within (some "") (.seq (making 2 "1.0.0" none) (.throw (.raised "boom")))))
        fun _ => making 3 "2.0.0" none)
      (making 4 "3.0.0" (some "alice")))

/-- What the registry holds before: a plugin without releases. -/
def begun : World Unit :=
  (Registry.plain none).run [⟨.early 1, .upsert (.bare "acme.a" [])⟩] (.blank ())

/-- The empty user hides the inner and the outer one, the handler finds the outer one, and the name
that is given counts before it. -/
theorem acts_by_scope_nested :
    ∃ thrown? stage slot', nested.run (.plain none) ⟨begun, []⟩ .initial =
        ((thrown?, stage), slot') ∧
      slot'.current = none ∧ (∀ sight ∈ stage.seen, sight.Lawful "anonymous") ∧
      (stage.world.plugin? "acme.a").map (·.releases.map fun r => (r.version, r.lastModifiedBy)) =
        some [("1.0.0", some "anonymous"), ("2.0.0", some "outer"), ("3.0.0", some "alice")] := by
  have hreached : (Registry.plain none).Reached begun := by
    refine Registry.Reached.run (.empty ⟨rfl, rfl⟩) ?_
    decide
  have hreleases : (Release.bare "1.0.0" false).WellFormed ∧
      (Release.bare "2.0.0" false).WellFormed ∧ (Release.bare "3.0.0" false).WellFormed := by
    decide
  have hproper : nested.Proper :=
    ⟨⟨⟨hreleases.1, trivial⟩, fun _ => hreleases.2.1⟩, hreleases.2.2⟩
  have hstored : ((nested.eval (.plain none) ⟨begun, []⟩ none).2.world.plugin? "acme.a").map
        (·.releases.map fun r => (r.version, r.lastModifiedBy)) =
      some [("1.0.0", some "anonymous"), ("2.0.0", some "outer"), ("3.0.0", some "alice")] := by
    decide +kernel
  obtain ⟨thrown?, stage, slot', hrun, heval, hcurrent, hlawful⟩ :=
    acts_by_scope (r := .plain none) hproper hreached Slot.fresh_initial
  refine ⟨thrown?, stage, slot', hrun, hcurrent, hlawful, ?_⟩
  have hstage : (nested.eval (.plain none) ⟨begun, []⟩ none).2 = stage := congrArg Prod.snd heval
  rw [← hstage]
  exact hstored

end Program

end Identity

end PluginRegistry
