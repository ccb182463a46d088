import Unsugar.Proofs.StringLiteral.Quoting

/-! Literals for any byte string. A bytes literal gives back the bytes that it was written
for. A string literal denotes a text whatever it was written for: a byte that is no part of
a character comes back as the character with its code. -/

namespace Unsugar

/-- The character that a piece of a string literal denotes. -/
def Text.Piece.denoted : Text.Piece → Char
  | .char value => value
  | .stray byte => Char.ofNat byte.toNat

namespace StringLiteral

variable (printable : Char → Bool) (triple : Bool)

/-- The code of a byte is that of a character. -/
theorem encodeByte_toNat (byte : UInt8) :
    encodeByte false byte.toNat = Text.encode [Char.ofNat byte.toNat] := by
  have bound := byte.toNat_lt
  have valid : byte.toNat.isValidChar := .inl (by omega)
  by_cases small : byte.toNat < 0x80
  · have code : (Char.ofNat byte.toNat).toNat = byte.toNat := Text.charOfNat_toNat valid
    rw [encodeByte, if_pos (.inr small), encode_cons_ascii (by omega), ascii, code]
    rfl
  · rw [encodeByte, if_neg (by simp [small]), encodeCode, if_pos valid]

/-- A piece of a string literal is read as its character. -/
theorem quotePiece_decodes_denoted (piece : Text.Piece) {rest tail : List UInt8}
    (given : Decodes false rest tail) :
    Decodes false (Text.encode (quotePiece printable triple piece) ++ rest)
      (Text.encode [piece.denoted] ++ tail) := by
  cases piece with
  | char char =>
    have decodes := quotePiece_decodes printable triple char given
    rwa [← List.append_nil (String.utf8EncodeChar char)] at decodes
  | stray byte =>
    have escapes := escape_hex byte.toNat_lt false rest
    have width : (ascii 'x' :: Text.encode (Text.hexDigits 2 byte.toNat)).length = 3 :=
      congrArg (· + 1) (encode_hexDigits 2 byte.toNat).1
    rw [encodeByte_toNat, ← width] at escapes
    exact given.escape _ escapes

theorem quoteBody_decodes_denoted (value : List UInt8) :
    Decodes false (Text.encode (quoteBody printable false triple value))
      (Text.encode ((Text.pieces value).map Text.Piece.denoted)) := by
  change Decodes false (Text.encode ((Text.pieces value).flatMap (quotePiece printable triple))) _
  induction Text.pieces value with
  | nil => exact .nil
  | cons piece pieces induction =>
    rw [List.flatMap_cons, List.map_cons, Text.encode_append, ← List.singleton_append,
      Text.encode_append]
    exact quotePiece_decodes_denoted printable triple piece induction

/-- Reading a literal undoes writing it. A bytes literal that is written for any byte string
denotes it. A string literal that is written for any byte string is read as a string literal
with the same quotes; its value is the byte string exactly if this is the UTF-8 of a text.
Which characters beyond ASCII are shown as themselves does not matter. -/
theorem unquote_undoes_quote (value : List UInt8) :
    unquote (Text.encode (quoteWith printable true triple value)) =
        .ok { value, triple, inBytes := true } ∧
      ∃ denoted, unquote (Text.encode (quoteWith printable false triple value)) =
          .ok { value := denoted, triple, inBytes := false } ∧
        (denoted = value ↔ Text.IsText value) := by
  refine ⟨unquote_quoteWith printable triple (.inl rfl), _,
    unquote_quoteWith_of_decodes (quoteBody_decodes_denoted printable triple value), ?_, ?_⟩
  · -- What is read is a text in any case.
    intro same
    exact ⟨_, same.symm⟩
  · rintro ⟨text, rfl⟩
    rw [Text.pieces_encode, List.map_map]
    exact congrArg Text.encode (List.map_id text)

end StringLiteral
end Unsugar
