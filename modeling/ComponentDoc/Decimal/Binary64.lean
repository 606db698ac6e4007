set_option autoImplicit false

namespace ComponentDoc

structure Binary64 where
  bits : UInt64
  deriving DecidableEq, Inhabited

namespace Binary64

def negative (x : Binary64) : Bool := decide (Nat.pow 2 63 ≤ x.bits.toNat)

def exponentField (x : Binary64) : Nat := x.bits.toNat / Nat.pow 2 52 % Nat.pow 2 11

def fraction (x : Binary64) : Nat := x.bits.toNat % Nat.pow 2 52

def isNaN (x : Binary64) : Bool := x.exponentField == 2047 && x.fraction != 0

def isInfinite (x : Binary64) : Bool := x.exponentField == 2047 && x.fraction == 0

def isFinite (x : Binary64) : Bool := x.exponentField != 2047

/-- The absolute value of a finite number is its mantissa times two to its exponent. -/
def mantissa (x : Binary64) : Nat :=
  if x.exponentField = 0 then x.fraction else Nat.pow 2 52 + x.fraction

def exponent (x : Binary64) : Int := (max x.exponentField 1 : Nat) - 1075

def isZero (x : Binary64) : Bool := x.isFinite && x.mantissa == 0

def nan : Binary64 := ⟨0x7FF8000000000000⟩

def infinity (negative : Bool) : Binary64 :=
  ⟨if negative then 0xFFF0000000000000 else 0x7FF0000000000000⟩

def zero (negative : Bool) : Binary64 := ⟨if negative then 0x8000000000000000 else 0⟩

def same (x y : Binary64) : Bool :=
  x.isNaN && y.isNaN || x.isZero && y.isZero || x.bits == y.bits

def orderKey (x : Binary64) : Int :=
  let magnitude : Int := (x.bits.toNat % Nat.pow 2 63 : Nat)
  if x.negative then -magnitude else magnitude

/-- The quotient of two naturals to the nearest natural, a tie to the even one. -/
def roundDiv (num den : Nat) : Nat :=
  let q := num / den
  let r := num % den
  if 2 * r < den then q else if 2 * r = den ∧ q % 2 = 0 then q else q + 1

def scaleDown (num den : Nat) (e : Int) : Nat × Nat :=
  match e with
  | .ofNat k => (num, den * Nat.pow 2 k)
  | .negSucc k => (num * Nat.pow 2 (k + 1), den)

/-- The least exponent that a 53 bit mantissa of the ratio allows, never below that of the
subnormal numbers. -/
def targetExponent (num den : Nat) : Int :=
  let guess := max (-1074) ((num.log2 : Int) - den.log2 - 53)
  let (n, d) := scaleDown num den guess
  if n / d < Nat.pow 2 53 then guess else guess + 1

def ofRatio (negative : Bool) (num den : Nat) : Binary64 :=
  if num = 0 ∨ den = 0 then zero negative
  else
    let e := targetExponent num den
    let (n, d) := scaleDown num den e
    let magnitude := (e + 1074).toNat * Nat.pow 2 52 + roundDiv n d
    if 2047 * Nat.pow 2 52 ≤ magnitude then infinity negative
    else ⟨.ofNat ((if negative then Nat.pow 2 63 else 0) + magnitude)⟩

/-- The number nearest to a decimal. Beyond four hundred places on either side of the point every
decimal is infinite or zero. -/
def ofDecimal (negative : Bool) (m : Nat) (e : Int) (width : Nat) : Binary64 :=
  if m = 0 then zero negative
  else if e > 400 then infinity negative
  else if e + width < -400 then zero negative
  else match e with
    | .ofNat k => ofRatio negative (m * Nat.pow 10 k) 1
    | .negSucc k => ofRatio negative m (Nat.pow 10 (k + 1))

def ofInt (i : Int) : Binary64 := ofRatio (decide (i < 0)) i.natAbs 1

end Binary64

end ComponentDoc
