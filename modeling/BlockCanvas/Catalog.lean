import BlockCanvas.Definition
namespace BlockCanvas

-- The known definitions, each filed under its own id.
structure Catalog where
  table : Table Definition
  keyed : ∀ row ∈ table.rows, row.1 = row.2.id

namespace Catalog

theorem mem_put {key : String} {value : α} {rows : List (String × α)} {row : String × α}
    (member : row ∈ Rows.put key value rows) : row = (key, value) ∨ row ∈ rows := by
  induction rows with
  | nil => exact Or.inl (by simpa [Rows.put] using member)
  | cons head rest ih =>
      rw [Rows.put] at member
      split at member
      · rcases List.mem_cons.mp member with equal | later
        · exact Or.inl equal
        · exact Or.inr (List.mem_cons_of_mem _ later)
      · rcases List.mem_cons.mp member with equal | later
        · exact Or.inr (equal ▸ List.mem_cons_self)
        · exact (ih later).imp id (List.mem_cons_of_mem _)

def empty : Catalog := ⟨Table.empty, by simp [Table.empty]⟩

-- A definition with a known id takes the place of the old one.
def insert (catalog : Catalog) (definition : Definition) : Catalog :=
  ⟨catalog.table.put definition.id definition, by
    intro row member
    rcases mem_put member with equal | old
    · rw [equal]
    · exact catalog.keyed row old⟩

def ofDefinitions (definitions : List Definition) : Catalog :=
  definitions.foldl insert empty

def get? (catalog : Catalog) (id : String) : Option Definition := catalog.table.get? id

def contains (catalog : Catalog) (id : String) : Bool := catalog.table.contains id

def definitions (catalog : Catalog) : List Definition := catalog.table.values

-- Without a category, or with an empty one, all categories count; a level keeps what is at most it.
def select (catalog : Catalog) (category : Option String) (level : Option Int) : List Definition :=
  catalog.definitions.filter fun definition =>
    (match category with
      | none => true
      | some name => name = "" || definition.category.name = name) &&
    (match level with
      | none => true
      | some most => definition.level ≤ most)

-- Categories in the order of their names.
def sortedCategories : List Category := [.control, .functions, .io, .operators, .naming]

def count (catalog : Catalog) (category : Category) : Nat :=
  (catalog.definitions.filter fun definition => definition.category = category).length

-- The categories that occur, with the number of their definitions.
def categories (catalog : Catalog) : List (String × Nat) :=
  (sortedCategories.filter fun category => catalog.count category ≠ 0).map fun category =>
    (category.name, catalog.count category)

end Catalog
end BlockCanvas
