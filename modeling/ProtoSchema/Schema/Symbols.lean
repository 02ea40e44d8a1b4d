import ProtoSchema.Model.Identity
/-!
## Symbol tables

The full names that one file declares. A name that is declared again means the
later declaration from then on, and the conflict is kept.
-/

namespace ProtoSchema

/-- A full name that was declared before, in the same file or in one loaded
earlier. -/
structure Conflict where
  name : String
  previous : UserType
  current : UserType
  deriving DecidableEq, Repr

/-- The names of a file, the newest first, and the conflicts, the oldest first. -/
structure SymbolTable where
  entries : List (String × UserType) := []
  conflicts : List Conflict := []
  deriving DecidableEq, Repr

namespace SymbolTable

/-- What a name means. -/
def find? (table : SymbolTable) (name : String) : Option UserType :=
  table.entries.lookup name

/-- The table with a name declared; `previous` is what the name meant before. -/
def insert (table : SymbolTable) (name : String) (target : UserType)
    (previous : Option UserType) : SymbolTable :=
  { entries := (name, target) :: table.entries
    conflicts := table.conflicts ++ (previous.map (⟨name, ·, target⟩)).toList }

@[simp] theorem find?_insert_self (table : SymbolTable) (name : String) (target : UserType)
    (previous : Option UserType) :
    (table.insert name target previous).find? name = some target := by
  simp [find?, insert]

theorem find?_insert_of_ne (table : SymbolTable) {name other : String} (target : UserType)
    (previous : Option UserType) (different : other ≠ name) :
    (table.insert name target previous).find? other = table.find? other := by
  simp [find?, insert, List.lookup_cons, beq_false_of_ne different]

end SymbolTable

end ProtoSchema
