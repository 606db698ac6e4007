set_option autoImplicit false

namespace ComponentDoc.Decimal

def digitValue (c : Char) : Option Nat :=
  if '0' ≤ c ∧ c ≤ '9' then some (c.toNat - '0'.toNat)
  else if 'a' ≤ c ∧ c ≤ 'f' then some (c.toNat - 'a'.toNat + 10)
  else if 'A' ≤ c ∧ c ≤ 'F' then some (c.toNat - 'A'.toNat + 10)
  else none

def isDigit (c : Char) : Bool := decide ('0' ≤ c ∧ c ≤ '9')

def isHexDigit (c : Char) : Bool := (digitValue c).isSome

def foldDigits (radix : Nat) (value : Nat) : List Char → Option Nat
  | [] => some value
  | c :: cs => do
    let d ← digitValue c
    if d < radix then foldDigits radix (value * radix + d) cs else none

def readDigits (radix : Nat) : List Char → Option Nat
  | [] => none
  | cs => foldDigits radix 0 cs

def digits (n : Nat) : List Char := Nat.toDigits 10 n

def digitCount (n : Nat) : Nat := (digits n).length

def hexDigits (n : Nat) : List Char := Nat.toDigits 16 n

def hexDigitsUpper (n : Nat) : List Char := (hexDigits n).map Char.toUpper

/-- Hexadecimal digits in upper case, filled with zeros to a width. -/
def hexPadded (width n : Nat) : List Char :=
  List.replicate (width - (hexDigits n).length) '0' ++ hexDigitsUpper n

def intText (i : Int) : List Char :=
  if i < 0 then '-' :: digits i.natAbs else digits i.natAbs

end ComponentDoc.Decimal
