import PluginRegistry.Proofs.Atomicity

/-!
# Lifetimes of records

The life of a record begins with the upsert that makes it and ends when it is removed. What belongs
to it are the operations on the record that succeeded, each with the time of its call and the user
who acted. Some of what a record tells depends on nothing but its life. `Deed.Traces` is what has to
be shown of that, once for a record that is made and once for one that is revised; then it is so
after every run, for every record.
-/

namespace PluginRegistry

/-- An operation that was asked for, who acted and when, and whether it succeeded. -/
structure Deed where
  stamp : Stamp
  operation : Operation
  succeeded : Bool

namespace Deed

/-- The life of a record, longer by one deed. A failure adds nothing, nor does an operation on
another record, and a removal ends the life. -/
def prolong (id : String) (life : List Deed) (d : Deed) : List Deed :=
  if d.succeeded = true ∧ d.operation.target? = some id then
    match d.operation with
    | .delete _ _ => []
    | _ => life ++ [d]
  else life

/-- The deeds that the record of an id lives by: those on it since it was made. -/
def life (id : String) (deeds : List Deed) : List Deed := deeds.foldl (prolong id) []

variable {id : String} {deeds : List Deed} {d : Deed}

theorem life_append_singleton (id : String) (deeds : List Deed) (d : Deed) :
    life id (deeds ++ [d]) = prolong id (life id deeds) d := by
  unfold life
  rw [List.foldl_append]
  rfl

theorem life_append_of_not (h : ¬(d.succeeded = true ∧ d.operation.target? = some id)) :
    life id (deeds ++ [d]) = life id deeds := by
  rw [life_append_singleton, prolong, if_neg h]

theorem life_append_of_target (hok : d.succeeded = true) (ht : d.operation.target? = some id)
    (hd : ∀ id user, d.operation ≠ .delete id user) :
    life id (deeds ++ [d]) = life id deeds ++ [d] := by
  rw [life_append_singleton, prolong, if_pos ⟨hok, ht⟩]
  split
  · rename_i hdelete
    exact absurd hdelete (hd _ _)
  · rfl

theorem life_append_of_delete {user : Option String} (hok : d.succeeded = true)
    (hd : d.operation = .delete id user) : life id (deeds ++ [d]) = [] := by
  have ht : d.operation.target? = some id := by
    rw [hd]
    rfl
  rw [life_append_singleton, prolong, if_pos ⟨hok, ht⟩, hd]

/-- A life is part of what happened, in the same order. -/
theorem life_sublist (id : String) (deeds : List Deed) : (life id deeds).Sublist deeds := by
  induction deeds using List.reverseRecOn with
  | nil => exact List.Sublist.refl _
  | append_singleton deeds d ih =>
      rw [life_append_singleton, prolong]
      split
      · split
        · exact List.nil_sublist _
        · exact ih.append_right [d]
      · exact ih.trans (List.sublist_append_left deeds [d])

/-- Whoever lives by a deed, it was done, on that record. -/
theorem of_mem_life (h : d ∈ life id deeds) :
    d.succeeded = true ∧ d.operation.target? = some id := by
  induction deeds using List.reverseRecOn with
  | nil => cases h
  | append_singleton deeds d' ih =>
      rw [life_append_singleton, prolong] at h
      split at h
      · rename_i hdone
        split at h
        · cases h
        · rcases List.mem_append.mp h with h | h
          · exact ih h
          · cases List.mem_singleton.mp h
            exact hdone
      · exact ih h

/-- What can be told of a record by its life, and by the row that keeps it. -/
structure Traces (P : List Deed → Row → Plugin → Prop) : Prop where
  /-- It can be told of a record that was made. -/
  made : ∀ {d : Deed} {row : Row} {candidate : Plugin}, d.operation = .upsert candidate →
    row.service = candidate.service → row.createdAt = d.stamp.time →
      row.lastModified = d.stamp.time → P [d] row candidate.withoutPreference.restored
  /-- It can be told of what is kept when a record was revised. -/
  revised : ∀ {life : List Deed} {d : Deed} {row row' : Row} {p q : Plugin},
    P life row p → d.operation.Proper → d.operation.revision? d.stamp (p.timed row) = some q →
      p.WellFormed → q.WellFormed → row'.service = q.service → row'.createdAt = row.createdAt →
        row'.lastModified = d.stamp.time → P (life ++ [d]) row' (p.overwrittenBy q)

end Deed

namespace Registry

variable {σ : Type}

/-- What a call comes to, by the state that it starts from. -/
def deed (r : Registry σ) (c : Call) (w : World σ) : Deed where
  stamp := ⟨c.now, r.actorAt c.operation.user? w.asked⟩
  operation := c.operation
  succeeded := (r.answer c w).1.isOk

/-- What was done in a run. -/
def deeds (r : Registry σ) : List Call → World σ → List Deed := r.trace r.deed

/-- Each call is timed by its own clock reading. -/
theorem times_deeds (r : Registry σ) (calls : List Call) (w : World σ) :
    (r.deeds calls w).map (·.stamp.time) = calls.map Call.now := by
  unfold deeds
  induction calls generalizing w with
  | nil => rfl
  | cons c rest ih => exact congrArg (List.cons c.now) (ih _)

end Registry

/-- Of the record of an id, what is told by its life is true: nothing lives where there is no
record. -/
structure World.Traced {σ : Type} (P : List Deed → Row → Plugin → Prop) (id : String)
    (life : List Deed) (w : World σ) : Prop where
  /-- Where there is no record there is no life. -/
  absent : w.row? id = none → life = []
  /-- The record is as its life tells. -/
  present : ∀ row p, w.row? id = some row → row.Holds p → P life row p

namespace World

variable {σ : Type} {P : List Deed → Row → Plugin → Prop} {id : String} {life : List Deed}
  {w w' : World σ}

theorem Empty.traced (hw : w.Empty) : w.Traced P id [] where
  absent _ := rfl
  present row p hrow _ := by cases (hw.row? id).symm.trans hrow

theorem Traced.same (h : w.Traced P id life) (hrow : w'.row? id = w.row? id) :
    w'.Traced P id life where
  absent hnone := h.absent (hrow.symm.trans hnone)
  present row p hsome := h.present row p (hrow.symm.trans hsome)

theorem Made.traced (hP : Deed.Traces P) {d : Deed} {candidate : Plugin}
    (hd : d.operation = .upsert candidate)
    (h : w.Made d.stamp.time candidate.withoutPreference w') :
    w'.Traced P candidate.id [d] where
  absent hnone := by
    obtain ⟨row, hrow, _⟩ := h.after
    cases hnone.symm.trans hrow
  present row p hrow hp := by
    obtain ⟨row', hrow', _, htag, hcreated, hmodified⟩ := h.after
    cases hrow.symm.trans hrow'
    rw [h.eq_restored hrow hp]
    exact hP.made hd htag hcreated hmodified

theorem Rewritten.traced (hP : Deed.Traces P) (ht : w.Traced P id life) {d : Deed}
    (hd : d.operation.Proper) {row : Row} {p q : Plugin}
    (hrevision : d.operation.revision? d.stamp (p.timed row) = some q) (hq : q.WellFormed)
    (h : w.Rewritten d.stamp.time id row p q w') : w'.Traced P id (life ++ [d]) where
  absent hnone := by
    obtain ⟨row', hrow', _⟩ := h.after
    cases hnone.symm.trans hrow'
  present row₁ p₁ hrow₁ hp₁ := by
    obtain ⟨row', hrow', _, htag, hcreated, hmodified⟩ := h.after
    cases hrow₁.symm.trans hrow'
    rw [h.eq_overwrittenBy hrow₁ hp₁]
    exact hP.revised (ht.present row p h.before h.held) hd hrevision h.held.wellFormed hq htag
      hcreated hmodified

end World

namespace Registry

variable {σ : Type} {r : Registry σ} {P : List Deed → Row → Plugin → Prop}

/-- What was told before a successful operation is told after it, with the deed. -/
theorem Effect.traced (hP : Deed.Traces P) {now : CivilTime} {op : Operation} (hop : op.Proper)
    {w w' : World σ} (h : r.Effect now w w' op) {id : String} {deeds : List Deed}
    (ht : w.Traced P id (Deed.life id deeds)) : w'.Traced P id
      (Deed.life id (deeds ++ [⟨⟨now, r.actorAt op.user? w.asked⟩, op, true⟩])) := by
  -- a deed on another record leaves this one as it was
  have hother : op.target? ≠ some id → w'.row? id = w.row? id → w'.Traced P id
      (Deed.life id (deeds ++ [⟨⟨now, r.actorAt op.user? w.asked⟩, op, true⟩])) := by
    intro hne hrow
    rw [Deed.life_append_of_not fun hdone => hne hdone.2]
    exact ht.same hrow
  cases h with
  | unchanged htarget hrows =>
      exact hother (fun he => nomatch htarget.symm.trans he) (hrows id)
  | @made candidate hvalid hmade =>
      by_cases hid : id = candidate.id
      · subst hid
        -- where there was no record there was no life
        rw [Deed.life_append_of_target rfl rfl fun _ _ h => (by cases h), ht.absent hmade.before]
        exact hmade.traced hP rfl
      · exact hother (fun he => hid (Option.some.inj he).symm) (hmade.others id hid)
  | @revised _ target row p q stamp htarget hstamp hrevision hvalid hwf hrewritten hactor =>
      obtain ⟨time, actor⟩ := stamp
      cases hstamp
      cases hactor
      by_cases hid : id = target
      · subst hid
        have hnot : ∀ id' user, op ≠ .delete id' user := by
          rintro _ _ rfl
          cases hrevision
        rw [Deed.life_append_of_target rfl htarget hnot]
        exact hrewritten.traced hP ht hop hrevision hwf
      · exact hother (fun he => hid (Option.some.inj (he.symm.trans htarget)))
          (hrewritten.others id hid)
  | @removed target user hremoved =>
      by_cases hid : id = target
      · subst hid
        rw [Deed.life_append_of_delete rfl rfl]
        exact ⟨fun _ => rfl, fun row p hrow _ => nomatch hremoved.after.symm.trans hrow⟩
      · exact hother (fun he => hid (Option.some.inj he).symm) (hremoved.others id hid)

/-- What was told before a call is told after it. -/
theorem traced_answer (hP : Deed.Traces P) {c : Call} (hop : c.operation.Proper) {w : World σ}
    (hs : w.Sound) {id : String} {deeds : List Deed} (ht : w.Traced P id (Deed.life id deeds)) :
    (r.answer c w).2.Traced P id (Deed.life id (deeds ++ [r.deed c w])) := by
  unfold deed
  rcases answer_cases r hs hop with ⟨hfailed, hk⟩ | ⟨hok, heffect⟩
  · rw [hfailed, Deed.life_append_of_not fun hdone => Bool.false_ne_true hdone.1]
    exact ht.same (hk.sameRecords.row? id)
  · rw [hok]
    exact heffect.traced hP hop ht

/-- **A record is as its life tells**, after every run that starts with an empty table. -/
theorem traced_run (hP : Deed.Traces P) {w : World σ} (hw : w.Empty) {calls : List Call}
    (hc : ∀ c ∈ calls, c.operation.Proper) (id : String) :
    (r.run calls w).Traced P id (Deed.life id (r.deeds calls w)) :=
  (r.trace_induction r.deed
    (motive := fun deeds w => w.Sound ∧ w.Traced P id (Deed.life id deeds))
    (fun _ _ _ hop h => ⟨r.sound_answer hop h.1, traced_answer hP hop h.1 h.2⟩) hc []
    ⟨hw.sound, hw.traced⟩).2

/-- In a state that is reached every record has a life that tells of it. -/
theorem Reached.traced (hP : Deed.Traces P) {w : World σ} (hw : r.Reached w) (id : String) :
    ∃ deeds, w.Traced P id (Deed.life id deeds) := by
  induction hw with
  | empty hw => exact ⟨[], hw.traced⟩
  | @call w c hop hw ih =>
      obtain ⟨deeds, ht⟩ := ih
      exact ⟨_, traced_answer hP hop hw.sound ht⟩
  | stored artifacts _ ih =>
      obtain ⟨deeds, ht⟩ := ih
      exact ⟨deeds, ht.same rfl⟩

end Registry

end PluginRegistry
