import ComponentDoc.Decimal.Digits

set_option autoImplicit false

namespace ComponentDoc.Yaml

def isBreak (c : Char) : Bool :=
  c == '\n' || c == '\r' || c == '\x85' || c == '\u2028' || c == '\u2029'

def isBlank (c : Char) : Bool := c == ' ' || c == '\t'

def isGap : Option Char → Bool
  | none => true
  | some c => isBlank c || isBreak c

def isLineEnd : Option Char → Bool
  | none => true
  | some c => isBreak c

def isWordChar (c : Char) : Bool := c.isAlphanum || c == '_' || c == '-'

def byteOrderMark : Char := '\ufeff'

def isAllowed (c : Char) : Bool :=
  let n := c.toNat
  decide (n = 0x09 ∨ n = 0x0A ∨ n = 0x0D ∨ 0x20 ≤ n ∧ n ≤ 0x7E ∨ n = 0x85 ∨
    0xA0 ≤ n ∧ n ≤ 0xD7FF ∨ 0xE000 ≤ n ∧ n ≤ 0xFFFD ∨ 0x10000 ≤ n)

/-- Whether a character is written as itself. -/
def isPrintable (c : Char) : Bool :=
  let n := c.toNat
  decide (n = 0x0A ∨ 0x20 ≤ n ∧ n ≤ 0x7E ∨ 0xA0 ≤ n ∧ n ≤ 0xD7FF ∨
    0xE000 ≤ n ∧ n ≤ 0xFFFD ∧ n ≠ 0xFEFF ∨ 0x10000 ≤ n)

end ComponentDoc.Yaml
