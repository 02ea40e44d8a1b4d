import ProtoSchema.Schema.Basic
/-!
## Visibility

Which declarations a file sees. A file passes on its own names and those that its
public imports pass on. It sees what it declares itself, then what each of its
public imports sees, then what each of the others passes on. Thus a private import
is seen by the importing file and by the files that import that one publicly, but
it is not passed on.

An import comes before its importer, so that both searches end; an edge to a later
file is not followed.
-/

namespace ProtoSchema.Schema

/-- What a name means to the importers of a file. -/
def passedOn? (schema : Schema) (id : FileId) (name : String) : Option UserType :=
  match schema.files[id]? with
  | none => none
  | some loaded =>
      loaded.symbols.find? name <|>
        loaded.reexports.findSome? fun next =>
          if next < id then schema.passedOn? next name else none
  termination_by id

/-- What a name means in a file. -/
def visible? (schema : Schema) (id : FileId) (name : String) : Option UserType :=
  match schema.files[id]? with
  | none => none
  | some loaded =>
      loaded.symbols.find? name <|>
        (loaded.reexports.findSome? fun next =>
          if next < id then schema.visible? next name else none) <|>
        loaded.privates.findSome? fun next => schema.passedOn? next name
  termination_by id

/-- What a name means by the imports of a file that is not in the schema yet. -/
def imported? (schema : Schema) (loaded : LoadedFile) (name : String) : Option UserType :=
  (loaded.reexports.findSome? fun next => schema.visible? next name) <|>
    loaded.privates.findSome? fun next => schema.passedOn? next name

/-- What a name means in a file that is not in the schema yet. -/
def seenBy? (schema : Schema) (loaded : LoadedFile) (name : String) : Option UserType :=
  loaded.symbols.find? name <|> schema.imported? loaded name

/-- The newest declaration of a name, whoever sees it. -/
def newest? (schema : Schema) (name : String) : Option UserType :=
  schema.files.toList.reverse.findSome? (·.symbols.find? name)

end ProtoSchema.Schema
