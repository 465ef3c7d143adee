import Brainfuck.Proofs.Output.ByteForms

/-!
# Texts restored from their bytes

The wide codec loses nothing: a decoder finds the end of each character in the bytes
of a text, so they decode to that text and to no other. The other codecs have one byte
for every character, and there is no end to find, but only the characters within the
limit have a byte of their own; reading each byte as the character of that code gives
those back and a question mark for the rest. `encodeText_restorable` collects this for
all three.
-/

namespace Brainfuck.Codec

/-- The codecs of one byte for every character, with the largest code that has a byte of
its own. -/
inductive SingleByte : Codec -> Nat -> Prop where
  | ascii : SingleByte ascii 0x7f
  | latin1 : SingleByte latin1 0xff

/-- The character of which a byte is the code. -/
def ofByte (byte : UInt8) : Char :=
  Char.ofNat byte.toNat

/-- Every byte is the code of a character. -/
@[simp] theorem toNat_ofByte (byte : UInt8) : (ofByte byte).toNat = byte.toNat := by
  have valid : byte.toNat.isValidChar := .inl (Nat.lt_trans byte.toNat_lt (by decide))
  rw [ofByte, Char.ofNat, dif_pos valid]
  rfl

/-- Latin-1 has a byte of its own for each of these characters. -/
@[simp] theorem encode_latin1_ofByte (byte : UInt8) : latin1.encode (ofByte byte) = [byte] := by
  have within : byte.toNat ≤ 0xff := Nat.le_of_lt_succ byte.toNat_lt
  simp [encode, narrow, within]

namespace SingleByte

variable {codec : Codec} {limit : Nat}

/-- No limit is beyond the codes that a byte can have. -/
theorem limit_le (single : SingleByte codec limit) : limit ≤ 0xff := by
  cases single <;> decide

/-- The substitute is within every limit. -/
theorem substitute_le (single : SingleByte codec limit) : substitute.toNat ≤ limit := by
  cases single <;> decide

/-- Such a codec is not the wide one. -/
theorem ne_utf8 (single : SingleByte codec limit) : codec ≠ utf8 := by
  cases single <;> decide

/-- The bytes of a text are those of its characters, one for each. -/
theorem encodeText_eq_map (single : SingleByte codec limit) (text : List Char) :
    codec.encodeText text = text.map (narrow limit) := by
  rw [List.map_eq_flatMap]
  cases single <;> rfl

/-- The byte of a character is its code within the limit, and the substitute beyond. -/
theorem toNat_narrow (single : SingleByte codec limit) (character : Char) :
    (narrow limit character).toNat =
      if character.toNat ≤ limit then character.toNat else substitute.toNat := by
  unfold narrow
  split
  · rename_i within
    exact UInt8.toNat_ofNat_of_lt' (Nat.lt_succ_of_le (Nat.le_trans within single.limit_le))
  · rfl

/-- The characters within the limit are those that their bytes are the codes of. -/
theorem ofByte_narrow_eq_iff (single : SingleByte codec limit) (character : Char) :
    ofByte (narrow limit character) = character ↔ character.toNat ≤ limit := by
  rw [ofByte, single.toNat_narrow]
  by_cases within : character.toNat ≤ limit
  · rw [if_pos within, Char.ofNat_toNat]
    exact iff_of_true rfl within
  · rw [if_neg within]
    refine iff_of_false ?_ within
    -- What comes back is a question mark, which has a byte of its own.
    intro restored
    exact within (restored ▸ single.substitute_le)

end SingleByte

/-- What the bytes of a text are in a codec of one byte for every character: the codes of
the characters, up to the limit. They say as much as the text, and as much as its bytes in
the wide codec do, only if no character is beyond the limit, or beyond ASCII. -/
structure Narrows (codec : Codec) (limit : Nat) (text : List Char) : Prop where
  codes : (codec.encodeText text).map UInt8.toNat =
    text.map fun character => if character.toNat ≤ limit then character.toNat else 0x3f
  restores : (codec.encodeText text).map ofByte = text ↔
    ∀ character ∈ text, character.toNat ≤ limit
  agrees : codec.encodeText text = utf8.encodeText text ↔
    ∀ character ∈ text, character.toNat ≤ 0x7f

/-- A codec of one byte for every character narrows every text. -/
theorem SingleByte.narrows {codec : Codec} {limit : Nat} (single : SingleByte codec limit)
    (text : List Char) : Narrows codec limit text where
  codes := by
    rw [single.encodeText_eq_map, List.map_map]
    exact List.map_congr_left fun character _ => single.toNat_narrow character
  restores := by
    have everyByte : text.map (ofByte ∘ narrow limit) = text.map id ↔
        ∀ character ∈ text, character.toNat ≤ limit := by
      rw [List.map_inj_left]
      exact forall₂_congr fun character _ => single.ofByte_narrow_eq_iff character
    rwa [List.map_id, ← List.map_map, ← single.encodeText_eq_map] at everyByte
  agrees := encodeText_eq_utf8_iff single.ne_utf8

/-- What the bytes of a text are in the wide codec: UTF-8 of that text and of no other,
with up to four bytes for a character. -/
structure Widens (text : List Char) : Prop where
  valid : (utf8.encodeText text).toByteArray.IsValidUTF8
  decoded : (utf8.encodeText text).toByteArray.utf8Decode? = some text.toArray
  distinct : ∀ other, utf8.encodeText other = utf8.encodeText text -> other = text
  lengths : ∀ character ∈ text,
    1 ≤ (utf8.encode character).length ∧ (utf8.encode character).length ≤ 4

/-- The bytes of a text in the wide codec decode to that text. -/
theorem utf8Decode?_encodeText (text : List Char) :
    (utf8.encodeText text).toByteArray.utf8Decode? = some text.toArray :=
  List.utf8Decode?_utf8Encode

/-- The wide codec widens every text. -/
theorem widens (text : List Char) : Widens text where
  valid := ByteArray.isValidUTF8_utf8Encode
  decoded := utf8Decode?_encodeText text
  distinct := by
    intro other same
    have decodedAlike := utf8Decode?_encodeText other
    rw [same, utf8Decode?_encodeText, Option.some_inj] at decodedAlike
    exact (List.toArray_inj decodedAlike).symm
  lengths := by
    intro character _
    rw [encode, String.length_utf8EncodeChar]
    exact ⟨character.utf8Size_pos, character.utf8Size_le_four⟩

/-- What every text can be told by from its bytes, in each codec. -/
theorem encodeText_restorable (text : List Char) :
    Widens text ∧ Narrows ascii 0x7f text ∧ Narrows latin1 0xff text :=
  ⟨widens text, SingleByte.ascii.narrows text, SingleByte.latin1.narrows text⟩

end Brainfuck.Codec
