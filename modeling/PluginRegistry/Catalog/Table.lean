import PluginRegistry.Plugin.Basic

/-!
# The table of records

A row keeps the body of a record under its id, with the service tag and the times of its creation
and of its last change. Rows are kept in the order of their ids, and no two have the same.
-/

namespace PluginRegistry

/-- A row of the table. The times are told in UTC. -/
structure Row where
  id : String
  service : Option String
  body : Json
  createdAt : CivilTime
  lastModified : CivilTime

/-- The record that a row keeps, with the times of the row. -/
def Plugin.ofRow (row : Row) : Except Schema.Rejection Plugin := do
  let p ← Plugin.read row.body.toDocument
  return { p with
    createTs := some (.utc row.createdAt)
    lastModified := some (.utc row.lastModified) }

/-- Rows in the order of their ids. -/
structure Table where
  rows : List Row
  ordered : rows.Pairwise fun a b => a.id < b.id

namespace Table

/-- A table without rows. -/
def empty : Table := ⟨[], .nil⟩

instance : Inhabited Table := ⟨empty⟩

/-- The row of an id. -/
def find? (t : Table) (id : String) : Option Row := t.rows.find? (·.id = id)

/-- The rows with one more, before the first that has a later id. -/
def place (row : Row) : List Row → List Row
  | [] => [row]
  | r :: rest => if row.id < r.id then row :: r :: rest else r :: place row rest

theorem mem_place {row x : Row} {rows : List Row} : x ∈ place row rows ↔ x = row ∨ x ∈ rows := by
  induction rows with
  | nil => simp [place]
  | cons r rest ih =>
    unfold place
    split
    · simp
    · simp only [List.mem_cons, ih]
      constructor
      · rintro (h | h | h) <;> simp [h]
      · rintro (h | h | h) <;> simp [h]

/-- Two ids that are not in order one way are in order the other way. -/
theorem lt_of_not_lt {a b : String} (h : ¬a < b) (ne : a ≠ b) : b < a := by
  by_cases h' : b < a
  · exact h'
  · exact absurd (String.le_antisymm (String.not_lt.1 h') (String.not_lt.1 h)) ne

theorem pairwise_place {row : Row} {rows : List Row}
    (ordered : rows.Pairwise fun a b => a.id < b.id) (new : ∀ r ∈ rows, row.id ≠ r.id) :
    (place row rows).Pairwise fun a b => a.id < b.id := by
  induction rows with
  | nil => simp [place]
  | cons r rest ih =>
    have tail := List.pairwise_cons.1 ordered
    unfold place
    split
    · rename_i first
      refine List.pairwise_cons.2 ⟨fun x hx => ?_, ordered⟩
      rcases List.mem_cons.1 hx with rfl | hx
      · exact first
      · exact String.lt_trans first (tail.1 x hx)
    · rename_i notFirst
      refine List.pairwise_cons.2
        ⟨fun x hx => ?_, ih tail.2 fun r hr => new r (List.mem_cons_of_mem _ hr)⟩
      rcases mem_place.1 hx with rfl | hx
      · exact lt_of_not_lt notFirst (new r List.mem_cons_self)
      · exact tail.1 x hx

/-- Adds a row, unless there is one with its id. -/
def insert? (row : Row) (t : Table) : Option Table :=
  if new : ∀ r ∈ t.rows, row.id ≠ r.id then
    some ⟨place row t.rows, pairwise_place t.ordered new⟩
  else none

/-- Changes the row of an id and keeps the id. -/
def modify (id : String) (change : Row → Row) (t : Table) : Table where
  rows := t.rows.map fun r => if r.id = id then { change r with id := r.id } else r
  ordered := by
    refine List.pairwise_map.2 (t.ordered.imp fun {a b} h => ?_)
    split <;> split <;> exact h

/-- Removes the row of an id. -/
def erase (id : String) (t : Table) : Table where
  rows := t.rows.filter fun r => r.id ≠ id
  ordered := t.ordered.filter _

end Table

end PluginRegistry
