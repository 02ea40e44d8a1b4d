import ProtoSchema.Schema.Query
/-!
## Remembered answers

Every file of a schema remembers which extend blocks it has found for a message name,
and does not search for them again. A file that lists one more extend block for a
message forgets its answer for that message, and a file that is taken out takes its
answers with it.
-/

namespace ProtoSchema

/-- What the files of a schema have found for the full names of messages. The newest
answer for a name counts. -/
structure Answers where
  tables : Array (List (String × List ExtensionId)) := #[]

namespace Answers

/-- The answer that a file remembers for a full name. -/
def known? (answers : Answers) (id : FileId) (fullName : String) :
    Option (List ExtensionId) :=
  answers.tables[id]?.bind fun table => table.lookup fullName

/-- The answers with one more. -/
def store (answers : Answers) (id : FileId) (fullName : String) (blocks : List ExtensionId) :
    Answers :=
  { tables := answers.tables.modify id fun table => (fullName, blocks) :: table }

/-- The answers without those of one file for one name. -/
def drop (answers : Answers) (id : FileId) (fullName : String) : Answers :=
  { tables := answers.tables.modify id fun table => table.filter (·.1 != fullName) }

/-- The answers with those of a new file, the extend blocks of which are listed one by
one. -/
def push (answers : Answers) (loaded : LoadedFile) : Answers :=
  loaded.extended.foldl (fun answers (fullName, block) => answers.drop block.file fullName)
    { tables := answers.tables.push [] }

/-- The answers without those of the last file. -/
def pop (answers : Answers) : Answers :=
  { tables := answers.tables.pop }

end Answers

/-- The extend blocks that a file sees for a message of a full name, if possible from
memory, and the answers afterwards. -/
def Schema.ask (schema : Schema) (answers : Answers) (id : FileId) (fullName : String) :
    List ExtensionId × Answers :=
  match answers.known? id fullName with
  | some blocks => (blocks, answers)
  | none =>
      let blocks := schema.visibleExtensions id fullName
      (blocks, answers.store id fullName blocks)

end ProtoSchema
