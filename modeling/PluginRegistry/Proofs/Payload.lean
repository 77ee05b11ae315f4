import PluginRegistry.Document.Payload
import Mathlib.Data.List.Nodup
import Mathlib.Data.Option.Basic

/-!
# Payloads are settled once they are written

A record keeps undeclared entries as documents, and the stored body keeps their payloads. Writing is
lossy the first time, since a date becomes its text and a set becomes a list, but not again: what is
read back from a payload is written as the same payload, and it can be written if the first document
could. So an entry that went through the catalog once goes through it unchanged from then on.
-/

namespace PluginRegistry

/-! ## Members under keys -/

theorem mem_keys_putMember {α : Type} {key k : String} {value : α} {members : List (String × α)} :
    k ∈ (putMember key value members).map Prod.fst ↔ k = key ∨ k ∈ members.map Prod.fst := by
  induction members with
  | nil => simp [putMember]
  | cons m rest ih =>
      obtain ⟨k', v'⟩ := m
      unfold putMember
      split
      · rename_i h
        simp [h]
      · simp only [List.map_cons, List.mem_cons, ih]
        exact or_left_comm

theorem nodup_putMember {α : Type} {key : String} {value : α} {members : List (String × α)}
    (h : (members.map Prod.fst).Nodup) : ((putMember key value members).map Prod.fst).Nodup := by
  induction members with
  | nil => simp [putMember]
  | cons m rest ih =>
      obtain ⟨k', v'⟩ := m
      obtain ⟨h1, h2⟩ := List.nodup_cons.mp h
      unfold putMember
      split
      · rename_i he
        rw [he] at h1
        exact List.nodup_cons.mpr ⟨h1, h2⟩
      · rename_i he
        refine List.nodup_cons.mpr ⟨?_, ih h2⟩
        intro hm
        rcases mem_keys_putMember.mp hm with hk | hk
        · exact he hk
        · exact h1 hk

theorem forall_mem_putMember {α : Type} {P : α → Prop} {key : String} {value : α}
    {members : List (String × α)} (hv : P value) (h : ∀ m ∈ members, P m.2) :
    ∀ m ∈ putMember key value members, P m.2 := by
  induction members with
  | nil => intro m hm; simp [putMember] at hm; exact hm ▸ hv
  | cons m rest ih =>
      obtain ⟨h1, h2⟩ := List.forall_mem_cons.mp h
      obtain ⟨k', v'⟩ := m
      unfold putMember
      split
      · exact List.forall_mem_cons.mpr ⟨hv, h2⟩
      · exact List.forall_mem_cons.mpr ⟨h1, ih h2⟩

theorem putMember_of_notMem {α : Type} {key : String} {value : α} {members : List (String × α)}
    (h : key ∉ members.map Prod.fst) : putMember key value members = members ++ [(key, value)] := by
  induction members with
  | nil => rfl
  | cons m rest ih =>
      obtain ⟨k', v'⟩ := m
      simp only [List.map_cons, List.mem_cons, not_or] at h
      unfold putMember
      rw [if_neg (fun he => h.1 he.symm), ih h.2]
      rfl

namespace Document

/-! ## What is written twice -/

/-- The value is written as itself once it was read back. -/
def Steady (value : Json) : Prop := value.toDocument.payload = value

theorem steady_scalar (s : Scalar) : Steady s.payload := by
  cases s with
  | float x => cases x <;> rfl
  | _ => rfl

theorem payloads_toDocuments {items : List Json} (h : ∀ x ∈ items, Steady x) :
    payloads (Json.toDocuments items) = items := by
  induction items with
  | nil => rfl
  | cons x xs ih =>
      obtain ⟨h1, h2⟩ := List.forall_mem_cons.mp h
      rw [Json.toDocuments, payloads, ih h2, h1]

theorem payloadMembers_toEntries {members written : List (String × Json)}
    (h : ∀ m ∈ members, Steady m.2) (hn : ((written ++ members).map Prod.fst).Nodup) :
    payloadMembers written (Json.toEntries members) = written ++ members := by
  induction members generalizing written with
  | nil => rw [Json.toEntries, payloadMembers, List.append_nil]
  | cons m rest ih =>
      obtain ⟨k, v⟩ := m
      obtain ⟨h1, h2⟩ := List.forall_mem_cons.mp h
      have hk : k ∉ written.map Prod.fst := by
        intro hk
        rw [List.map_append, List.nodup_append] at hn
        exact hn.2.2 k hk k (by simp) rfl
      rw [Json.toEntries, payloadMembers]
      have hv : v.toDocument.payload = v := h1
      rw [show (Scalar.text k).keyText = k from rfl, hv, putMember_of_notMem hk, ih h2]
      · rw [List.append_assoc]; rfl
      · rw [List.append_assoc]; exact hn

mutual

theorem steady_payload : ∀ d : Document, Steady d.payload
  | .scalar s => by rw [payload]; exact steady_scalar s
  | .enclosing _ => by rw [payload]; rfl
  | .set members => by
      -- a set is written as a list of scalars
      rw [payload, Steady, Json.toDocument, payload, payloads_toDocuments]
      intro x hx
      obtain ⟨s, _, rfl⟩ := List.mem_map.mp hx
      exact steady_scalar s
  | .list items => by
      rw [payload, Steady, Json.toDocument, payload, payloads_toDocuments (steady_payloads items)]
  | .map entries => by
      obtain ⟨h1, h2⟩ := steady_payloadMembers entries [] (by simp) (by simp)
      rw [payload, Steady, Json.toDocument, payload,
        payloadMembers_toEntries h1 (by simpa using h2)]
      rfl

theorem steady_payloads : ∀ items : List Document, ∀ x ∈ payloads items, Steady x
  | [] => by simp [payloads]
  | d :: rest => by
      rw [payloads]
      exact List.forall_mem_cons.mpr ⟨steady_payload d, steady_payloads rest⟩

theorem steady_payloadMembers : ∀ (entries : List (Scalar × Document))
    (written : List (String × Json)), (∀ m ∈ written, Steady m.2) →
    (written.map Prod.fst).Nodup →
    (∀ m ∈ payloadMembers written entries, Steady m.2) ∧
      ((payloadMembers written entries).map Prod.fst).Nodup
  | [], written, h, hn => by rw [payloadMembers]; exact ⟨h, hn⟩
  | (k, v) :: rest, written, h, hn => by
      rw [payloadMembers]
      exact steady_payloadMembers rest _ (forall_mem_putMember (steady_payload v) h)
        (nodup_putMember hn)

end

/-! ## What can be written twice -/

/-- What is read back from the value can be written where there is room for so many levels. -/
def Writable (room : Nat) (value : Json) : Prop := value.toDocument.faultWithin? room = none

theorem writable_scalar {s : Scalar} {room : Nat}
    (h : (scalar s).faultWithin? room = none) :
    Writable room s.payload := by
  have hr : room ≠ 0 := by
    intro h0
    rw [faultWithin?, if_pos h0] at h
    cases h
  rw [faultWithin?, if_neg hr] at h
  cases s with
  | int n => rw [Writable, Scalar.payload, Json.toDocument, faultWithin?, if_neg hr]; exact h
  | float x =>
      cases x
      all_goals simp only [Writable, Scalar.payload, Json.toDocument, faultWithin?, if_neg hr]
      all_goals rfl
  | _ => simp only [Writable, Scalar.payload, Json.toDocument, faultWithin?, if_neg hr]; rfl

theorem itemFault?_toDocuments {room : Nat} {items : List Json}
    (h : ∀ x ∈ items, Writable room x) :
    itemFault? room (Json.toDocuments items) = none := by
  induction items with
  | nil => rfl
  | cons x xs ih =>
      obtain ⟨h1, h2⟩ := List.forall_mem_cons.mp h
      rw [Json.toDocuments, itemFault?, h1, ih h2]
      rfl

theorem entryFault?_toEntries {room : Nat} {members : List (String × Json)}
    (h : ∀ m ∈ members, Writable room m.2) :
    entryFault? room (Json.toEntries members) = none := by
  induction members with
  | nil => rfl
  | cons m rest ih =>
      obtain ⟨h1, h2⟩ := List.forall_mem_cons.mp h
      rw [Json.toEntries, entryFault?, h1, ih h2]
      rfl

theorem scalar_of_memberFault? {room : Nat} {members : List Scalar}
    (h : memberFault? room members = none) :
    ∀ s ∈ members, (scalar s).faultWithin? room = none := by
  induction members with
  | nil => intro s hs; cases hs
  | cons x xs ih =>
      rw [memberFault?] at h
      obtain ⟨h1, h2⟩ := (Option.orElse_eq_none _ _).mp h
      refine List.forall_mem_cons.mpr ⟨?_, ih h2⟩
      rw [faultWithin?]; exact h1

mutual

theorem writable_payload : ∀ (d : Document) (room : Nat), d.faultWithin? room = none →
    Writable room d.payload
  | .scalar s, room, h => by rw [payload]; exact writable_scalar h
  -- a value that encloses itself cannot be written
  | .enclosing _, room, h => by rw [faultWithin?] at h; cases h
  | .set members, room, h => by
      rw [faultWithin?] at h
      split at h
      · cases h
      · rename_i hr
        rw [payload, Writable, Json.toDocument, faultWithin?, if_neg hr]
        refine itemFault?_toDocuments ?_
        intro x hx
        obtain ⟨s, hs, rfl⟩ := List.mem_map.mp hx
        exact writable_scalar (scalar_of_memberFault? h s hs)
  | .list items, room, h => by
      rw [faultWithin?] at h
      split at h
      · cases h
      · rename_i hr
        rw [payload, Writable, Json.toDocument, faultWithin?, if_neg hr]
        exact itemFault?_toDocuments (writable_payloads items _ h)
  | .map entries, room, h => by
      rw [faultWithin?] at h
      split at h
      · cases h
      · rename_i hr
        rw [payload, Writable, Json.toDocument, faultWithin?, if_neg hr]
        exact entryFault?_toEntries (writable_payloadMembers entries _ [] (by simp) h)

theorem writable_payloads : ∀ (items : List Document) (room : Nat),
    itemFault? room items = none →
    ∀ x ∈ payloads items, Writable room x
  | [], _, _ => by simp [payloads]
  | d :: rest, room, h => by
      rw [itemFault?] at h
      obtain ⟨h1, h2⟩ := (Option.orElse_eq_none _ _).mp h
      rw [payloads]
      exact List.forall_mem_cons.mpr ⟨writable_payload d room h1, writable_payloads rest room h2⟩

theorem writable_payloadMembers : ∀ (entries : List (Scalar × Document)) (room : Nat)
    (written : List (String × Json)),
    (∀ m ∈ written, Writable room m.2) → entryFault? room entries = none →
    ∀ m ∈ payloadMembers written entries, Writable room m.2
  | [], _, _, hw, _ => by rw [payloadMembers]; exact hw
  | (k, v) :: rest, room, written, hw, h => by
      rw [entryFault?] at h
      obtain ⟨_, h2⟩ := (Option.orElse_eq_none _ _).mp h
      obtain ⟨h3, h4⟩ := (Option.orElse_eq_none _ _).mp h2
      rw [payloadMembers]
      exact writable_payloadMembers rest room _
        (forall_mem_putMember (writable_payload v room h3) hw) h4

end
end Document

end PluginRegistry
