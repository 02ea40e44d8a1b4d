import ProtoSchema.Text.Utf8
/-! # Texts and their bytes

What is decoded from the bytes of a text is the text. Only an ASCII character has bytes that are
less than 128, and it has one byte.
-/

namespace ProtoSchema.Utf8

/-! ## Encoding -/

theorem encode_cons (character : Char) (characters : List Char) :
    encode (character :: characters) = String.utf8EncodeChar character ++ encode characters :=
  List.flatMap_cons

theorem encode_append (left right : List Char) :
    encode (left ++ right) = encode left ++ encode right :=
  List.flatMap_append

theorem length_encode (characters : List Char) : (encode characters).length = size characters := by
  induction characters with
  | nil => rfl
  | cons character characters induction =>
      rw [encode_cons, List.length_append, String.length_utf8EncodeChar, induction, size_cons]

theorem toList_loop (bytes : ByteArray) (index : Nat) (read : List UInt8) :
    ByteArray.toList.loop bytes index read = read.reverse ++ bytes.data.toList.drop index := by
  fun_induction ByteArray.toList.loop bytes index read with
  | case1 index read inside induction =>
      have present : index < bytes.data.toList.length := inside
      have next : bytes.get! index = bytes.data.toList[index] :=
        (getElem!_pos bytes.data index inside).trans (Array.getElem_toList inside).symm
      rw [induction, List.reverse_cons, List.append_assoc, next, List.singleton_append,
        List.getElem_cons_drop]
  | case2 index read outside =>
      rw [List.drop_eq_nil_of_le (Nat.le_of_not_lt outside), List.append_nil]

theorem toByteArray_eq (source : String) :
    source.toByteArray = (encode source.toList).toByteArray :=
  calc source.toByteArray = (String.ofList source.toList).toByteArray := by
        rw [String.ofList_toList]
    _ = (encode source.toList).toByteArray := String.toByteArray_ofList

/-- The bytes of a source. -/
theorem toUTF8_toList (source : String) : source.toUTF8.toList = encode source.toList := by
  change ByteArray.toList.loop source.toByteArray 0 [] = _
  rw [toList_loop, toByteArray_eq, List.toList_data_toByteArray]
  rfl

theorem utf8ByteSize_eq (source : String) : source.utf8ByteSize = size source.toList := by
  rw [← String.size_toByteArray, toByteArray_eq, List.size_toByteArray, length_encode]

/-! ## Characters and their bytes -/

theorem utf8EncodeChar_of_lt {character : Char} (ascii : character.toNat < 128) :
    String.utf8EncodeChar character = [UInt8.ofNat character.toNat] :=
  if_pos (Nat.le_of_lt_succ ascii)

theorem utf8Size_of_lt {character : Char} (ascii : character.toNat < 128) :
    character.utf8Size = 1 := by
  rw [← String.length_utf8EncodeChar, utf8EncodeChar_of_lt ascii]
  rfl

theorem le_of_mem_utf8EncodeChar {character : Char} (other : 128 ≤ character.toNat) :
    ∀ byte ∈ String.utf8EncodeChar character, 128 ≤ byte.toNat := by
  have high {value lead : Nat} (large : 128 ≤ lead) (small : value + lead < 256) :
      128 ≤ (UInt8.ofNat (value + lead)).toNat := by
    rw [UInt8.toNat_ofNat', Nat.mod_eq_of_lt small]
    omega
  fun_cases String.utf8EncodeChar character with
  | case1 code ascii => exact absurd other (Nat.not_le_of_lt (Nat.lt_succ_of_le ascii))
  | case2 | case3 | case4 =>
      simp only [List.forall_mem_cons, List.not_mem_nil, false_implies, implies_true, and_true]
      and_intros <;> exact high (by omega) (by omega)

/-- The bytes of a text, each taken for a character. -/
def byteChars (characters : List Char) : List Char :=
  (encode characters).map fun byte => Char.ofNat byte.toNat

theorem toNat_ofNat_byte (byte : UInt8) : (Char.ofNat byte.toNat).toNat = byte.toNat := by
  have small : byte.toNat < 256 := byte.toNat_lt
  rw [Char.ofNat, dif_pos (.inl (by omega))]
  rfl

theorem length_byteChars (characters : List Char) :
    (byteChars characters).length = size characters := by
  rw [byteChars, List.length_map, length_encode]

theorem byteChars_cons_of_lt {character : Char} (ascii : character.toNat < 128)
    (characters : List Char) :
    byteChars (character :: characters) = character :: byteChars characters := by
  have byte : (UInt8.ofNat character.toNat).toNat = character.toNat := by
    rw [UInt8.toNat_ofNat']
    omega
  rw [byteChars, encode_cons, utf8EncodeChar_of_lt ascii, List.singleton_append, List.map_cons,
    byte, Char.ofNat_toNat]
  rfl

theorem byteChars_append_of_lt {front : List Char}
    (ascii : ∀ character ∈ front, character.toNat < 128) (characters : List Char) :
    byteChars (front ++ characters) = front ++ byteChars characters := by
  induction front with
  | nil => rfl
  | cons first front induction =>
      rw [List.forall_mem_cons] at ascii
      rw [List.cons_append, byteChars_cons_of_lt ascii.1, induction ascii.2, List.cons_append]

/-- The bytes of a character other than ASCII are none of the ASCII characters. -/
theorem exists_byteChars_cons {character : Char} (other : 128 ≤ character.toNat)
    (characters : List Char) :
    ∃ bytes, byteChars (character :: characters) = bytes ++ byteChars characters ∧ bytes ≠ [] ∧
      bytes.length = character.utf8Size ∧ ∀ byte ∈ bytes, 128 ≤ byte.toNat := by
  have length := String.length_utf8EncodeChar character
  have positive := character.utf8Size_pos
  refine ⟨(String.utf8EncodeChar character).map fun byte => Char.ofNat byte.toNat, ?_, ?_, ?_, ?_⟩
  · rw [byteChars, encode_cons, List.map_append]
    rfl
  · rw [ne_eq, List.map_eq_nil_iff, ← List.length_eq_zero_iff]
    omega
  · rw [List.length_map, length]
  · rw [List.forall_mem_map]
    intro byte member
    rw [toNat_ofNat_byte]
    exact le_of_mem_utf8EncodeChar other byte member

/-! ## Decoding -/

theorem readFollowers_of_fits {value : Nat} {least greatest byte : UInt8}
    (low : least ≤ byte) (high : byte ≤ greatest) (bounds : List (UInt8 × UInt8))
    (bytes : List UInt8) :
    readFollowers value ((least, greatest) :: bounds) (byte :: bytes) =
      ((readFollowers (value * 64 + byte.toNat % 64) bounds bytes).1,
        (readFollowers (value * 64 + byte.toNat % 64) bounds bytes).2 + 1) := by
  rw [readFollowers, if_pos (by simp [low, high])]

theorem decodeEach_of_followers {lead : UInt8} {bytes : List UInt8} {value read : Nat}
    {bounds : List (UInt8 × UInt8)} {character : Option Char}
    (promised : followers lead = some (value, bounds))
    (found : readFollowers value bounds bytes = (character, read)) :
    decodeEach (lead :: bytes) = character :: decodeEach (bytes.drop read) := by
  rw [decodeEach, promised]
  simp only [found]

section Followers

variable {lead first : UInt8}

theorem followers_of_two (low : 0xC2 ≤ lead.toNat) (high : lead.toNat < 0xE0) :
    followers lead = some (lead.toNat % 0x20, [(0x80, 0xBF)]) := by
  have bounds : ¬lead < 0x80 ∧ ¬lead < 0xC2 ∧ lead < 0xE0 := by
    simp only [UInt8.lt_iff_toNat_lt, UInt8.reduceToNat]
    omega
  simp only [followers, bounds, if_true, if_false]

/-- The first follower of three bytes is bounded so that the form is the shortest one and no
surrogate is written. -/
theorem followers_of_three (low : 0xE0 ≤ lead.toNat) (high : lead.toNat < 0xF0)
    (continues : 0x80 ≤ first.toNat ∧ first.toNat ≤ 0xBF)
    (shortest : lead.toNat = 0xE0 → 0xA0 ≤ first.toNat)
    (noSurrogate : lead.toNat = 0xED → first.toNat ≤ 0x9F) :
    ∃ least greatest,
      followers lead = some (lead.toNat % 0x10, [(least, greatest), (0x80, 0xBF)]) ∧
        least ≤ first ∧ first ≤ greatest := by
  have bounds : ¬lead < 0x80 ∧ ¬lead < 0xC2 ∧ ¬lead < 0xE0 ∧ lead < 0xF0 := by
    simp only [UInt8.lt_iff_toNat_lt, UInt8.reduceToNat]
    omega
  simp only [UInt8.le_iff_toNat_le]
  by_cases least : lead = 0xE0
  · subst least
    exact ⟨0xA0, 0xBF, rfl, shortest rfl, continues.2⟩
  by_cases surrogate : lead = 0xED
  · subst surrogate
    exact ⟨0x80, 0x9F, rfl, continues.1, noSurrogate rfl⟩
  · exact ⟨0x80, 0xBF, by simp only [followers, bounds, least, surrogate, if_true, if_false],
      continues⟩

/-- The first follower of four bytes is bounded so that the form is the shortest one and the
character exists. -/
theorem followers_of_four (low : 0xF0 ≤ lead.toNat) (high : lead.toNat ≤ 0xF4)
    (continues : 0x80 ≤ first.toNat ∧ first.toNat ≤ 0xBF)
    (shortest : lead.toNat = 0xF0 → 0x90 ≤ first.toNat)
    (exists_ : lead.toNat = 0xF4 → first.toNat ≤ 0x8F) :
    ∃ least greatest, followers lead =
        some (lead.toNat % 0x08, [(least, greatest), (0x80, 0xBF), (0x80, 0xBF)]) ∧
      least ≤ first ∧ first ≤ greatest := by
  simp only [UInt8.le_iff_toNat_le]
  by_cases least : lead = 0xF0
  · subst least
    exact ⟨0x90, 0xBF, rfl, shortest rfl, continues.2⟩
  by_cases last : lead = 0xF4
  · subst last
    exact ⟨0x80, 0x8F, rfl, continues.1, exists_ rfl⟩
  have bounds : ¬lead < 0x80 ∧ ¬lead < 0xC2 ∧ ¬lead < 0xE0 ∧ lead ≠ 0xE0 ∧ lead ≠ 0xED ∧
      ¬lead < 0xF0 ∧ lead < 0xF4 := by
    simp only [UInt8.lt_iff_toNat_lt, ← UInt8.toNat_inj, UInt8.reduceToNat, ne_eq] at least last ⊢
    omega
  exact ⟨0x80, 0xBF, by simp only [followers, bounds, least, if_true, if_false], continues⟩

end Followers

/-- A follower that may have any value. -/
theorem readFollowers_any {value code : Nat} (bounds : List (UInt8 × UInt8))
    (bytes : List UInt8) :
    readFollowers value ((0x80, 0xBF) :: bounds) (UInt8.ofNat (code % 0x40 + 0x80) :: bytes) =
      ((readFollowers (value * 64 + code % 64) bounds bytes).1,
        (readFollowers (value * 64 + code % 64) bounds bytes).2 + 1) := by
  have byte : (UInt8.ofNat (code % 0x40 + 0x80)).toNat = code % 0x40 + 0x80 := by
    rw [UInt8.toNat_ofNat']
    omega
  have payload : (code % 0x40 + 0x80) % 64 = code % 64 := by omega
  rw [readFollowers_of_fits, byte, payload]
  all_goals
    simp only [UInt8.le_iff_toNat_le, UInt8.reduceToNat, byte]
    omega

/-- The bytes of a character are read as the character. -/
theorem decodeEach_utf8EncodeChar (character : Char) (bytes : List UInt8) :
    decodeEach (String.utf8EncodeChar character ++ bytes) =
      some character :: decodeEach bytes := by
  have byte {value : Nat} (small : value < 256) : (UInt8.ofNat value).toNat = value := by
    rw [UInt8.toNat_ofNat', Nat.mod_eq_of_lt small]
  have scalar : character.val.toNat < 0xD800 ∨
      0xDFFF < character.val.toNat ∧ character.val.toNat < 0x110000 := character.valid
  have whole {value : Nat} (same : value = character.val.toNat) :
      some (Char.ofNat value) :: decodeEach bytes = some character :: decodeEach bytes := by
    rw [same]
    exact congrArg (some · :: decodeEach bytes) (Char.ofNat_toNat character)
  fun_cases String.utf8EncodeChar character with
  | case1 code small =>
      have lead := @byte code (by omega)
      have promised : followers (UInt8.ofNat code) = some (code, []) := by
        rw [followers, if_pos, lead]
        simp only [UInt8.lt_iff_toNat_lt, UInt8.reduceToNat, lead]
        omega
      rw [List.singleton_append, decodeEach_of_followers promised rfl]
      exact whole rfl
  | case2 code large small =>
      have lead := @byte (code / 64 % 0x20 + 0xc0) (by omega)
      have promised := @followers_of_two (UInt8.ofNat (code / 64 % 0x20 + 0xc0)) (by omega)
        (by omega)
      rw [List.cons_append, List.singleton_append,
        decodeEach_of_followers promised (readFollowers_any [] bytes), lead]
      exact whole (by omega)
  | case3 code large more small =>
      have lead := @byte (code / 4096 % 0x10 + 0xe0) (by omega)
      have first := @byte (code / 64 % 0x40 + 0x80) (by omega)
      rcases @followers_of_three (UInt8.ofNat (code / 4096 % 0x10 + 0xe0))
        (UInt8.ofNat (code / 64 % 0x40 + 0x80)) (by omega) (by omega) (by omega) (by omega)
        (by omega) with ⟨least, greatest, promised, low, high⟩
      have read := @readFollowers_of_fits ((code / 4096 % 0x10 + 0xe0) % 0x10) _ _ _ low high
        [(0x80, 0xBF)] (UInt8.ofNat (code % 0x40 + 0x80) :: bytes)
      rw [readFollowers_any, first] at read
      rw [lead] at promised
      simp only [List.cons_append, List.nil_append]
      rw [decodeEach_of_followers promised read]
      exact whole (by omega)
  | case4 code large more most =>
      have lead := @byte (code / 262144 % 0x08 + 0xf0) (by omega)
      have first := @byte (code / 4096 % 0x40 + 0x80) (by omega)
      rcases @followers_of_four (UInt8.ofNat (code / 262144 % 0x08 + 0xf0))
        (UInt8.ofNat (code / 4096 % 0x40 + 0x80)) (by omega) (by omega) (by omega) (by omega)
        (by omega) with ⟨least, greatest, promised, low, high⟩
      have read := @readFollowers_of_fits ((code / 262144 % 0x08 + 0xf0) % 0x08) _ _ _ low high
        [(0x80, 0xBF), (0x80, 0xBF)]
        (UInt8.ofNat (code / 64 % 0x40 + 0x80) :: UInt8.ofNat (code % 0x40 + 0x80) :: bytes)
      rw [readFollowers_any, readFollowers_any, first] at read
      rw [lead] at promised
      simp only [List.cons_append, List.nil_append]
      rw [decodeEach_of_followers promised read]
      exact whole (by omega)

theorem decodeEach_encode (characters : List Char) :
    decodeEach (encode characters) = characters.map some := by
  induction characters with
  | nil => rw [encode, List.flatMap_nil, decodeEach, List.map_nil]
  | cons character characters induction =>
      rw [encode_cons, decodeEach_utf8EncodeChar, induction, List.map_cons]

/-- What is decoded from the bytes of a text is the text. -/
theorem decode?_encode (characters : List Char) :
    decode? (encode characters) = some characters := by
  rw [decode?, decodeEach_encode]
  induction characters with
  | nil => rfl
  | cons character characters induction =>
      rw [List.map_cons, List.mapM_cons, induction]
      rfl

end ProtoSchema.Utf8
