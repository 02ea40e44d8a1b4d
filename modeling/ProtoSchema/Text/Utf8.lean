/-!
## UTF-8

Sizes, encoding and decoding of character lists. Decoding walks the byte list
from the left. A malformed sequence is one that no continuation could complete;
its longest well-formed beginning (at least one byte) counts as one fault, which
the lenient reading shows as a single replacement character.
-/

namespace ProtoSchema.Utf8

/-! ### Encoding -/

/-- The number of bytes that a character list takes in UTF-8. -/
def size (characters : List Char) : Nat :=
  characters.foldr (fun character total => character.utf8Size + total) 0

@[simp] theorem size_nil : size [] = 0 := rfl

@[simp] theorem size_cons (character : Char) (characters : List Char) :
    size (character :: characters) = character.utf8Size + size characters :=
  rfl

@[simp] theorem size_append (left right : List Char) :
    size (left ++ right) = size left + size right := by
  induction left with
  | nil => simp
  | cons character left ih => simp [ih, Nat.add_assoc]

/-- The UTF-8 form of a character list. -/
def encode (characters : List Char) : List UInt8 :=
  characters.flatMap String.utf8EncodeChar

/-! ### Decoding -/

/-- What a leading byte promises: its payload, and for each byte that must
follow, the least and greatest value it may have. The bounds on the first
follower exclude overlong forms, surrogates and values beyond the last
character. -/
def followers (lead : UInt8) : Option (Nat × List (UInt8 × UInt8)) :=
  let any : UInt8 × UInt8 := (0x80, 0xBF)
  if lead < 0x80 then some (lead.toNat, [])
  else if lead < 0xC2 then none
  else if lead < 0xE0 then some (lead.toNat % 0x20, [any])
  else if lead = 0xE0 then some (lead.toNat % 0x10, [(0xA0, 0xBF), any])
  else if lead = 0xED then some (lead.toNat % 0x10, [(0x80, 0x9F), any])
  else if lead < 0xF0 then some (lead.toNat % 0x10, [any, any])
  else if lead = 0xF0 then some (lead.toNat % 0x08, [(0x90, 0xBF), any, any])
  else if lead < 0xF4 then some (lead.toNat % 0x08, [any, any, any])
  else if lead = 0xF4 then some (lead.toNat % 0x08, [(0x80, 0x8F), any, any])
  else none

/-- Reads the followers of a leading byte. The result is the character, or
`none` at the first byte that does not fit, with the number of followers read. -/
def readFollowers (value : Nat) : List (UInt8 × UInt8) → List UInt8 → Option Char × Nat
  | [], _ => (some (Char.ofNat value), 0)
  | _ :: _, [] => (none, 0)
  | (least, greatest) :: bounds, byte :: bytes =>
      if least ≤ byte && byte ≤ greatest then
        let (character, read) := readFollowers (value * 64 + byte.toNat % 64) bounds bytes
        (character, read + 1)
      else (none, 0)

/-- Splits a byte list into characters and faults (`none`). -/
def decodeEach : List UInt8 → List (Option Char)
  | [] => []
  | lead :: bytes =>
      match followers lead with
      | none => none :: decodeEach bytes
      | some (value, bounds) =>
          let (character, read) := readFollowers value bounds bytes
          character :: decodeEach (bytes.drop read)
  termination_by bytes => bytes.length

/-- The text of a well-formed byte list. -/
def decode? (bytes : List UInt8) : Option (List Char) :=
  (decodeEach bytes).mapM id

/-- The text of any byte list, each fault shown as U+FFFD. -/
def decodeLossy (bytes : List UInt8) : List Char :=
  (decodeEach bytes).map (Option.getD · '\uFFFD')

example : decode? [0x63, 0xC3, 0xA9] = some ['c', 'é'] := by cbv
example : decode? [0xC3, 0x28] = none := by cbv
example : decodeLossy [0xF0, 0x9F, 0x28, 0xC0, 0x80] = ['\uFFFD', '(', '\uFFFD', '\uFFFD'] := by
  cbv

end ProtoSchema.Utf8
