import PluginRegistry.Proofs.Payload

/-!
# JSON values as they are kept

A JSON text has each key of an object once, and every number in it is a number. Such a value is
regular: it is written as itself once it was read. How deeply it may be nested, and how many digits
its whole numbers may have, is told here without the writer.

Two values are the same if they differ at most in the order of members. Other than `Json.alike` this
keeps the kinds of numbers apart, and flags from numbers.
-/

namespace PluginRegistry

namespace Json

/-! ## Regular values -/

mutual

/-- Keys do not repeat, and doubles are numbers. -/
def isRegular : Json → Bool
  | .float (.finite _) => true
  | .float _ => false
  | .arr items => itemsAreRegular items
  | .obj members => decide (members.map Prod.fst).Nodup && membersAreRegular members
  | _ => true

/-- Every item is regular. -/
def itemsAreRegular : List Json → Bool
  | [] => true
  | x :: xs => isRegular x && itemsAreRegular xs

/-- The value of every member is regular. -/
def membersAreRegular : List (String × Json) → Bool
  | [] => true
  | (_, v) :: rest => isRegular v && membersAreRegular rest

end

theorem itemsAreRegular_iff {items : List Json} :
    itemsAreRegular items ↔ ∀ x ∈ items, x.isRegular := by
  induction items with
  | nil => simp [itemsAreRegular]
  | cons x xs ih => rw [itemsAreRegular, Bool.and_eq_true, ih, List.forall_mem_cons]

theorem membersAreRegular_iff {members : List (String × Json)} :
    membersAreRegular members ↔ ∀ m ∈ members, m.2.isRegular := by
  induction members with
  | nil => simp [membersAreRegular]
  | cons m rest ih =>
      obtain ⟨k, v⟩ := m
      rw [membersAreRegular, Bool.and_eq_true, ih, List.forall_mem_cons]

theorem isRegular_arr {items : List Json} :
    (arr items).isRegular ↔ ∀ x ∈ items, x.isRegular := by
  rw [isRegular, itemsAreRegular_iff]

theorem isRegular_obj {members : List (String × Json)} :
    (obj members).isRegular ↔
      (members.map Prod.fst).Nodup ∧ ∀ m ∈ members, m.2.isRegular := by
  rw [isRegular, Bool.and_eq_true, decide_eq_true_iff, membersAreRegular_iff]

theorem steady_arr {items : List Json} :
    Document.Steady (.arr items) ↔ ∀ x ∈ items, Document.Steady x := by
  rw [Document.Steady, toDocument, Document.payload]
  constructor
  · intro h
    have hitems := Document.steady_payloads (toDocuments items)
    rw [arr.inj h] at hitems
    exact hitems
  · intro h
    rw [Document.payloads_toDocuments h]

theorem steady_obj {members : List (String × Json)} :
    Document.Steady (.obj members) ↔
      (members.map Prod.fst).Nodup ∧ ∀ m ∈ members, Document.Steady m.2 := by
  rw [Document.Steady, toDocument, Document.payload]
  constructor
  · intro h
    have hmembers := Document.steady_payloadMembers (toEntries members) [] nofun List.nodup_nil
    rw [obj.inj h] at hmembers
    exact hmembers.symm
  · rintro ⟨hnodup, h⟩
    rw [Document.payloadMembers_toEntries h (by simpa using hnodup)]
    rfl

mutual

/-- A regular value is written as itself once it was read. -/
theorem steady_of_isRegular : ∀ value : Json, value.isRegular → Document.Steady value
  | .null, _ | .bool _, _ | .int _, _ | .str _, _ => rfl
  | .float (.finite _), _ => rfl
  | .arr items, h => steady_arr.mpr (steady_items items (isRegular_arr.mp h))
  | .obj members, h => by
      obtain ⟨hnodup, hregular⟩ := isRegular_obj.mp h
      exact steady_obj.mpr ⟨hnodup, steady_members members hregular⟩

theorem steady_items : ∀ items : List Json, (∀ x ∈ items, x.isRegular) →
    ∀ x ∈ items, Document.Steady x
  | [], _ => nofun
  | x :: xs, h => by
      obtain ⟨hx, hxs⟩ := List.forall_mem_cons.mp h
      exact List.forall_mem_cons.mpr ⟨steady_of_isRegular x hx, steady_items xs hxs⟩

theorem steady_members : ∀ members : List (String × Json), (∀ m ∈ members, m.2.isRegular) →
    ∀ m ∈ members, Document.Steady m.2
  | [], _ => nofun
  | (_, v) :: rest, h => by
      obtain ⟨hv, hrest⟩ := List.forall_mem_cons.mp h
      exact List.forall_mem_cons.mpr ⟨steady_of_isRegular v hv, steady_members rest hrest⟩

end

/-! ## Levels and digits -/

mutual

/-- How many levels a value has, scalars included. -/
def levels : Json → Nat
  | .null | .bool _ | .int _ | .float _ | .str _ => 1
  | .arr items => levelsOfItems items + 1
  | .obj members => levelsOfMembers members + 1

/-- The levels of the deepest item. -/
def levelsOfItems : List Json → Nat
  | [] => 0
  | x :: xs => max (levels x) (levelsOfItems xs)

/-- The levels of the deepest value. -/
def levelsOfMembers : List (String × Json) → Nat
  | [] => 0
  | (_, v) :: rest => max (levels v) (levelsOfMembers rest)

end

mutual

/-- Whole numbers have no more digits than can be written. -/
def digitsFit : Json → Bool
  | .int n => n.natAbs < Nat.pow 10 digitLimit
  | .null | .bool _ | .float _ | .str _ => true
  | .arr items => digitsOfItemsFit items
  | .obj members => digitsOfMembersFit members

/-- So it is in every item. -/
def digitsOfItemsFit : List Json → Bool
  | [] => true
  | x :: xs => digitsFit x && digitsOfItemsFit xs

/-- So it is in every value. -/
def digitsOfMembersFit : List (String × Json) → Bool
  | [] => true
  | (_, v) :: rest => digitsFit v && digitsOfMembersFit rest

end

theorem scalar_fault {s : Scalar} {room : Nat} :
    (Document.scalar s).faultWithin? room = none ↔ 1 ≤ room ∧ s.writeFault? = none := by
  rw [Document.faultWithin?]
  by_cases hroom : room = 0
  · simp [hroom]
  · simp [hroom, Nat.one_le_iff_ne_zero]

mutual

/-- **A value can be written if there is room for its levels and for its digits.** -/
theorem faultWithin?_toDocument : ∀ (value : Json) (room : Nat),
    value.toDocument.faultWithin? room = none ↔ value.levels ≤ room ∧ value.digitsFit
  | .null, room | .bool _, room | .str _, room | .float _, room => by
      rw [toDocument, scalar_fault, levels, digitsFit]
      simp [Scalar.writeFault?]
  | .int n, room => by
      rw [toDocument, scalar_fault, levels, digitsFit]
      simp [Scalar.writeFault?]
  | .arr items, room => by
      rw [toDocument, Document.faultWithin?, levels, digitsFit]
      cases room with
      | zero => simp
      | succ room => simpa using itemFault?_toDocuments items room
  | .obj members, room => by
      rw [toDocument, Document.faultWithin?, levels, digitsFit]
      cases room with
      | zero => simp
      | succ room => simpa using entryFault?_toEntries members room

theorem itemFault?_toDocuments : ∀ (items : List Json) (room : Nat),
    Document.itemFault? room (toDocuments items) = none ↔
      levelsOfItems items ≤ room ∧ digitsOfItemsFit items
  | [], room => by simp [toDocuments, Document.itemFault?, levelsOfItems, digitsOfItemsFit]
  | x :: xs, room => by
      rw [toDocuments, Document.itemFault?, Option.orElse_eq_none, faultWithin?_toDocument x room,
        itemFault?_toDocuments xs room, levelsOfItems, digitsOfItemsFit, Nat.max_le,
        Bool.and_eq_true]
      exact and_and_and_comm

theorem entryFault?_toEntries : ∀ (members : List (String × Json)) (room : Nat),
    Document.entryFault? room (toEntries members) = none ↔
      levelsOfMembers members ≤ room ∧ digitsOfMembersFit members
  | [], room => by simp [toEntries, Document.entryFault?, levelsOfMembers, digitsOfMembersFit]
  | (k, v) :: rest, room => by
      rw [toEntries, Document.entryFault?, Option.orElse_eq_none, Option.orElse_eq_none,
        faultWithin?_toDocument v room, entryFault?_toEntries rest room, levelsOfMembers,
        digitsOfMembersFit, Nat.max_le, Bool.and_eq_true, and_and_and_comm]
      -- a key is a text, which can always be written
      exact and_iff_right rfl

end

/-! ## The same value -/

mutual

/-- The values are the same up to the order of members. -/
def same : Json → Json → Bool
  | .null, .null => true
  | .bool a, .bool b => a = b
  | .int m, .int n => m = n
  | .float x, .float y => x = y
  | .str s, .str t => s = t
  | .arr xs, .arr ys => sameItems xs ys
  | .obj ms, .obj ns => ms.length = ns.length && sameMembers ms ns
  | _, _ => false

/-- The items are the same one by one. -/
def sameItems : List Json → List Json → Bool
  | [], [] => true
  | x :: xs, y :: ys => same x y && sameItems xs ys
  | _, _ => false

/-- Each of the members has one of its key among `others`, with the same value. -/
def sameMembers : List (String × Json) → List (String × Json) → Bool
  | [], _ => true
  | (key, value) :: rest, others =>
    (match others.lookup key with
      | some other => same value other
      | none => false) && sameMembers rest others

end

theorem lookup_of_mem {members : List (String × Json)} (h : (members.map Prod.fst).Nodup)
    {m : String × Json} (hm : m ∈ members) : members.lookup m.1 = some m.2 := by
  induction members with
  | nil => cases hm
  | cons first rest ih =>
      obtain ⟨hfirst, hrest⟩ := List.nodup_cons.mp h
      rw [List.lookup_cons]
      rcases List.mem_cons.mp hm with rfl | hm
      · rw [beq_self_eq_true]
      · have hne : m.1 ≠ first.1 := fun he => hfirst (he ▸ List.mem_map_of_mem hm)
        rw [beq_eq_false_iff_ne.mpr hne]
        exact ih hrest hm

mutual

/-- A value that is written as itself is the same as itself. -/
theorem same_self : ∀ value : Json, Document.Steady value → value.same value
  | .null, _ | .bool _, _ | .int _, _ | .float _, _ | .str _, _ => by simp [same]
  | .arr items, h => by
      rw [same]
      exact sameItems_self items (steady_arr.mp h)
  | .obj members, h => by
      obtain ⟨hnodup, hmembers⟩ := steady_obj.mp h
      rw [same, decide_eq_true rfl, Bool.true_and]
      exact sameMembers_self members members (fun m hm => lookup_of_mem hnodup hm) hmembers

theorem sameItems_self : ∀ items : List Json, (∀ x ∈ items, Document.Steady x) →
    sameItems items items
  | [], _ => by rw [sameItems]
  | x :: xs, h => by
      obtain ⟨hx, hxs⟩ := List.forall_mem_cons.mp h
      rw [sameItems, same_self x hx, sameItems_self xs hxs]
      rfl

theorem sameMembers_self : ∀ members others : List (String × Json),
    (∀ m ∈ members, others.lookup m.1 = some m.2) → (∀ m ∈ members, Document.Steady m.2) →
    sameMembers members others
  | [], _, _, _ => by rw [sameMembers]
  | (key, value) :: rest, others, hothers, h => by
      obtain ⟨hvalue, hrest⟩ := List.forall_mem_cons.mp h
      obtain ⟨hother, hlater⟩ := List.forall_mem_cons.mp hothers
      have hother : others.lookup key = some value := hother
      rw [sameMembers, hother, sameMembers_self rest others hlater hrest, Bool.and_true]
      exact same_self value hvalue

end

end Json

end PluginRegistry
