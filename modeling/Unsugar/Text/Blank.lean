namespace Unsugar.Text

/-! White space. The set is that of the Unicode property of this name, so it
holds the no-break and ideographic spaces as well as the ASCII ones. -/

/-- Whether a character is white space. -/
def isBlank (char : Char) : Bool :=
  let code := char.toNat
  (9 ≤ code && code ≤ 13) || code == 0x20 || code == 0x85 || code == 0xA0 ||
  code == 0x1680 || (0x2000 ≤ code && code ≤ 0x200A) || code == 0x2028 || code == 0x2029 ||
  code == 0x202F || code == 0x205F || code == 0x3000

/-- A text without its leading white space. -/
def trimStart (chars : List Char) : List Char :=
  chars.dropWhile isBlank

/-- A text without its leading and trailing white space. -/
def trim (chars : List Char) : List Char :=
  (trimStart (trimStart chars).reverse).reverse

end Unsugar.Text
