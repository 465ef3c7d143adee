import Brainfuck.Machine.Codec

/-!
# The byte forms of texts

A text goes through a codec character by character. The wide codec gives the bytes
of the text as a string, and only texts within ASCII have the same bytes in a narrow
codec: every other character takes at least two bytes in one and a single byte in the
other, so that the lengths differ.
-/

namespace Brainfuck.Codec

/-- The bytes of a text. -/
def encodeText (codec : Codec) (text : List Char) : List UInt8 :=
  text.flatMap codec.encode

@[simp] theorem encodeText_cons (codec : Codec) (character : Char) (rest : List Char) :
    codec.encodeText (character :: rest) = codec.encode character ++ codec.encodeText rest :=
  List.flatMap_cons

/-- The wide codec gives the bytes of a string. -/
theorem encodeText_utf8 (text : String) :
    utf8.encodeText text.toList = text.toUTF8.data.toList := by
  have bytes : text.toUTF8.data = (text.toList.flatMap String.utf8EncodeChar).toArray := by
    rw [String.toUTF8_eq_toByteArray, ← String.utf8Encode_toList, List.utf8Encode,
      List.data_toByteArray]
  rw [bytes]
  rfl

/-- A character within ASCII is one byte, its code, in every codec. -/
theorem encode_of_le {character : Char} (within : character.toNat ≤ 0x7f) (codec : Codec) :
    codec.encode character = [UInt8.ofNat character.toNat] := by
  cases codec with
  | ascii => simp [encode, narrow, within]
  | latin1 => simp [encode, narrow, Nat.le_trans within (by decide : 0x7f ≤ 0xff)]
  | utf8 => simp [encode, String.utf8EncodeChar, within]

/-- In the wide codec a character beyond ASCII takes more than one byte. -/
theorem le_of_length_encode_utf8_le {character : Char}
    (short : (utf8.encode character).length ≤ 1) : character.toNat ≤ 0x7f := by
  have positive := character.utf8Size_pos
  rw [encode, String.length_utf8EncodeChar] at short
  have single : character.utf8Size = 1 := Nat.le_antisymm short positive
  rw [Char.utf8Size_eq_one_iff, UInt32.le_iff_toNat_le] at single
  exact single

/-- Outside the wide codec every character is one byte. -/
theorem length_encode_narrow {codec : Codec} (narrow : codec ≠ utf8) (character : Char) :
    (codec.encode character).length = 1 := by
  cases codec with
  | ascii | latin1 => rfl
  | utf8 => exact absurd rfl narrow

/-- A text has as many bytes as characters outside the wide codec. -/
theorem length_encodeText_narrow {codec : Codec} (narrow : codec ≠ utf8) (text : List Char) :
    (codec.encodeText text).length = text.length := by
  induction text with
  | nil => rfl
  | cons character rest inductionHypothesis =>
      rw [encodeText_cons, List.length_append, inductionHypothesis, length_encode_narrow narrow,
        List.length_cons, Nat.add_comm]

/-- A text has no fewer bytes than characters. -/
theorem length_le_encodeText (codec : Codec) (text : List Char) :
    text.length ≤ (codec.encodeText text).length := by
  induction text with
  | nil => exact Nat.le_refl 0
  | cons character rest inductionHypothesis =>
      have positive := List.length_pos_iff.mpr (codec.encode_ne_nil character)
      rw [encodeText_cons, List.length_append, List.length_cons]
      omega

/-- A text that has no more bytes than characters in the wide codec is within ASCII. -/
theorem le_of_length_encodeText_utf8_le {text : List Char}
    (short : (utf8.encodeText text).length ≤ text.length) :
    ∀ character ∈ text, character.toNat ≤ 0x7f := by
  induction text with
  | nil => simp
  | cons first rest inductionHypothesis =>
      have positive := List.length_pos_iff.mpr (utf8.encode_ne_nil first)
      have atLeast := length_le_encodeText utf8 rest
      rw [encodeText_cons, List.length_append, List.length_cons] at short
      refine List.forall_mem_cons.mpr ⟨?_, ?_⟩
      · exact le_of_length_encode_utf8_le (by omega)
      · exact inductionHypothesis (by omega)

/-- A text has the same bytes in the wide codec and in another one exactly if it is
within ASCII. -/
theorem encodeText_eq_utf8_iff {codec : Codec} (narrow : codec ≠ utf8) {text : List Char} :
    codec.encodeText text = utf8.encodeText text ↔
      ∀ character ∈ text, character.toNat ≤ 0x7f := by
  constructor
  · intro same
    refine le_of_length_encodeText_utf8_le (Nat.le_of_eq ?_)
    rw [← same, length_encodeText_narrow narrow]
  · intro within
    have alike : text.map codec.encode = text.map utf8.encode := by
      refine List.map_congr_left fun character inside => ?_
      rw [encode_of_le (within character inside), encode_of_le (within character inside)]
    rw [encodeText, encodeText, List.flatMap_def, List.flatMap_def, alike]

end Brainfuck.Codec
