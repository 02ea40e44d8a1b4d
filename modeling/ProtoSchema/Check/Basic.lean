import ProtoSchema.Error
import ProtoSchema.Schema.Extensions
/-!
## Validators

A validator judges one file of a schema when all references of the file are
linked. The files that it imports have been judged before.
-/

namespace ProtoSchema

/-- A check of the file with a given number. -/
def Validator : Type :=
  Schema → FileId → Except LoadError Unit

namespace Validator

/-- The validator that reports what a search finds in a file. -/
def ofSearch (search : Schema → LoadedFile → Option CheckError) : Validator :=
  fun schema id =>
    match schema.files[id]? with
    | none => .ok ()
    | some loaded =>
        match search schema loaded with
        | some error => .error (.check error loaded.file.name loaded.source)
        | none => .ok ()

section Search

variable {search : Schema → LoadedFile → Option CheckError} {schema : Schema} {id : FileId}
  {loaded : LoadedFile}

theorem ofSearch_eq_ok_iff (present : schema.files[id]? = some loaded) :
    ofSearch search schema id = .ok () ↔ search schema loaded = none := by
  simp only [ofSearch, present]
  cases search schema loaded <;> simp

theorem ofSearch_eq_error_iff (present : schema.files[id]? = some loaded) {error : LoadError} :
    ofSearch search schema id = .error error ↔
      ∃ fault, search schema loaded = some fault ∧
        error = .check fault loaded.file.name loaded.source := by
  simp only [ofSearch, present]
  cases search schema loaded <;> simp [eq_comm]

end Search

/-- The validator that allows a file so many messages at any depth. A name of a
file limits it to that file. -/
def messageLimit (limit : Nat) (only : Option String) : Validator :=
  fun schema id =>
    match schema.file? id with
    | none => .ok ()
    | some file =>
        let count := file.allMessages.size
        if limit < count ∧ only.all (· == file.name) then
          .error (.custom s!"{count} messages in {file.name}" false)
        else .ok ()

end Validator

end ProtoSchema
