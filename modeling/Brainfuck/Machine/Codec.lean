/-!
# Codecs

How a character becomes bytes. The two narrow codecs write one byte for every
character, a question mark for those beyond their limit; the wide one writes
UTF-8.
-/

namespace Brainfuck

/-- The byte forms of a character that a stream can be asked for. -/
inductive Codec where
  | ascii
  | latin1
  | utf8
  deriving DecidableEq, Repr

namespace Codec

/-- The byte that stands for a character that has none of its own. -/
def substitute : UInt8 := 0x3f

/-- The byte of a character whose code is at most `limit`, and the substitute of
any other. -/
def narrow (limit : Nat) (character : Char) : UInt8 :=
  if character.toNat ≤ limit then UInt8.ofNat character.toNat else substitute

/-- The bytes of a character. -/
def encode (codec : Codec) (character : Char) : List UInt8 :=
  match codec with
  | .ascii => [narrow 0x7f character]
  | .latin1 => [narrow 0xff character]
  | .utf8 => String.utf8EncodeChar character

/-- Every character is worth at least one byte. -/
theorem encode_ne_nil (codec : Codec) (character : Char) : codec.encode character ≠ [] := by
  cases codec with
  | ascii => simp [encode]
  | latin1 => simp [encode]
  | utf8 => simp [encode]

end Codec

end Brainfuck
