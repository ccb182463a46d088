/-! UTF-8 with replacement. Reading never fails: a byte that does not begin a
well-formed sequence is a stray, and reading goes on with the byte after it. -/

namespace Unsugar.Text

/-- The character that a stray byte is shown as. -/
def replacement : Char := '\uFFFD'

/-- The payload of a continuation byte, when `byte` is one. -/
def continuation? (byte : UInt8) : Option Nat :=
  if 0x80 ≤ byte.toNat ∧ byte.toNat ≤ 0xBF then some (byte.toNat - 0x80) else none

/-- The character with code `code`, unless the code is no scalar value or is
below `least`, so that the sequence is overlong. -/
def scalar? (least code : Nat) : Option Char :=
  if least ≤ code ∧ code.isValidChar then some (Char.ofNat code) else none

/-- The character that a well-formed sequence at the front of the bytes denotes,
and the number of bytes it takes. -/
def wellFormed? (first : UInt8) (rest : List UInt8) : Option (Char × Nat) :=
  let lead := first.toNat
  if lead < 0x80 then
    some (Char.ofNat lead, 1)
  else if 0xC0 ≤ lead ∧ lead < 0xE0 then
    match rest with
    | second :: _ => do
      let low ← continuation? second
      let char ← scalar? 0x80 ((lead - 0xC0) * 64 + low)
      return (char, 2)
    | _ => none
  else if 0xE0 ≤ lead ∧ lead < 0xF0 then
    match rest with
    | second :: third :: _ => do
      let middle ← continuation? second
      let low ← continuation? third
      let char ← scalar? 0x800 (((lead - 0xE0) * 64 + middle) * 64 + low)
      return (char, 3)
    | _ => none
  else if 0xF0 ≤ lead ∧ lead < 0xF8 then
    match rest with
    | second :: third :: fourth :: _ => do
      let high ← continuation? second
      let middle ← continuation? third
      let low ← continuation? fourth
      let char ← scalar? 0x10000 ((((lead - 0xF0) * 64 + high) * 64 + middle) * 64 + low)
      return (char, 4)
    | _ => none
  else
    none

/-- What a byte string is made of. -/
inductive Piece where
  | char (value : Char)
  | stray (byte : UInt8)

/-- The pieces of a byte string after its first `skipped` bytes, which belong to
the character read last. -/
def piecesFrom : (skipped : Nat) → List UInt8 → List Piece
  | _, [] => []
  | skipped + 1, _ :: rest => piecesFrom skipped rest
  | 0, first :: rest =>
    match wellFormed? first rest with
    | some (char, width) => .char char :: piecesFrom (width - 1) rest
    | none => .stray first :: piecesFrom 0 rest

/-- The characters and stray bytes of a byte string. -/
def pieces (bytes : List UInt8) : List Piece :=
  piecesFrom 0 bytes

def Piece.shown : Piece → Char
  | .char value => value
  | .stray _ => replacement

/-- The characters of a byte string, each stray byte shown as a replacement. -/
def decode (bytes : List UInt8) : List Char :=
  (pieces bytes).map Piece.shown

/-- The bytes of a text. -/
def encode (chars : List Char) : List UInt8 :=
  chars.flatMap String.utf8EncodeChar

/-- The string that a byte string is shown as. -/
def ofBytes (bytes : List UInt8) : String :=
  String.ofList (decode bytes)

/-- The bytes of a string. -/
def toBytes (text : String) : List UInt8 :=
  encode text.toList

end Unsugar.Text
