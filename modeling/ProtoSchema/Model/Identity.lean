/-!
## Identities

Files are numbered in the order in which they were loaded, and the declarations of
a file in the order in which their bodies end, each kind for itself.
-/

namespace ProtoSchema

/-- The number of a file. -/
abbrev FileId := Nat

/-- The kinds of declarations that have a number. -/
inductive DeclarationKind
  | message
  | enum
  | service
  | extension
  deriving DecidableEq, Repr

/-- The number of a declaration of some kind in its file. -/
structure DeclarationId (kind : DeclarationKind) where
  file : FileId
  index : Nat
  deriving DecidableEq, Repr

abbrev MessageId := DeclarationId .message
abbrev EnumId := DeclarationId .enum
abbrev ServiceId := DeclarationId .service
abbrev ExtensionId := DeclarationId .extension

/-- A declaration that a full name can mean. -/
inductive UserType
  | message (id : MessageId)
  | enum (id : EnumId)
  | service (id : ServiceId)
  deriving DecidableEq, Repr

def UserType.file : UserType → FileId
  | message id => id.file
  | enum id => id.file
  | service id => id.file

/-- What a declaration stands in. -/
inductive Parent
  | file (id : FileId)
  | message (id : MessageId)
  deriving DecidableEq, Repr

end ProtoSchema
