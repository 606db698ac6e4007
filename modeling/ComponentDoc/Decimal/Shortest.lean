import ComponentDoc.Decimal.Digits
import ComponentDoc.Decimal.Binary64

/-!
The shortest decimal that reads back as a given binary number. The numbers that round to a mantissa
form an interval around it, whose ends belong to it when the mantissa is even. Decimal grids are
tried from the coarsest on; the first with a point in the interval gives the digits, the nearer of
two points wins, and of two equally near points the one with an even digit.
-/

set_option autoImplicit false

namespace ComponentDoc.Binary64

structure Decimal where
  digits : Nat
  exponent : Int
  deriving DecidableEq

def scaleUp (m : Nat) (e : Int) : Nat × Nat :=
  match e with
  | .ofNat k => (m * Nat.pow 2 k, 1)
  | .negSucc k => (m, Nat.pow 2 (k + 1))

def overTen (num den : Nat) (p : Int) : Nat × Nat :=
  match p with
  | .ofNat k => (num, den * Nat.pow 10 k)
  | .negSucc k => (num * Nat.pow 10 (k + 1), den)

def magnitudeTen (num den : Nat) : Int :=
  let guess : Int := (ComponentDoc.Decimal.digitCount num : Int) - ComponentDoc.Decimal.digitCount den
  let (n, d) := overTen num den guess
  if d ≤ n then guess else guess - 1

/-- Four times the bounds of the interval that rounds to a mantissa. Below a power of two the
numbers lie twice as dense. -/
def bounds (x : Binary64) : Nat × Nat :=
  let m := x.mantissa
  (if m = Nat.pow 2 52 ∧ 1 < x.exponentField then 4 * m - 1 else 4 * m - 2, 4 * m + 2)

def roundsTo (x : Binary64) (digits : Nat) (p : Int) : Bool :=
  let (lo, hi) := x.bounds
  let (dn, dd) := match p with
    | .ofNat k => (digits * Nat.pow 10 k, 1)
    | .negSucc k => (digits, Nat.pow 10 (k + 1))
  let (ln, ld) := scaleUp lo (x.exponent - 2)
  let (hn, hd) := scaleUp hi (x.exponent - 2)
  if x.mantissa % 2 = 0 then decide (ln * dd ≤ dn * ld ∧ dn * hd ≤ hn * dd)
  else decide (ln * dd < dn * ld ∧ dn * hd < hn * dd)

/-- The point of one decimal grid that stands for the number, if one does. -/
def onGrid (x : Binary64) (p : Int) : Option Decimal :=
  let (num, den) := scaleUp x.mantissa x.exponent
  let (n, d) := overTen num den p
  let lo := n / d
  let rest := n % d
  let hi := lo + 1
  let nearLo := decide (2 * rest < d ∨ 2 * rest = d ∧ lo % 2 = 0)
  match 0 < lo && x.roundsTo lo p, x.roundsTo hi p with
  | true, true => some ⟨if nearLo then lo else hi, p⟩
  | true, false => some ⟨lo, p⟩
  | false, true => some ⟨hi, p⟩
  | false, false => none

def firstGrid (x : Binary64) (top : Int) : Nat → Nat → Option Decimal
  | 0, _ => none
  | fuel + 1, count =>
    match x.onGrid (top + 1 - count) with
    | some d => some d
    | none => firstGrid x top fuel (count + 1)

def Decimal.strip : Nat → Decimal → Decimal
  | 0, d => d
  | fuel + 1, d =>
    if d.digits % 10 = 0 ∧ d.digits ≠ 0 then Decimal.strip fuel ⟨d.digits / 10, d.exponent + 1⟩ else d

/-- The shortest decimal of a finite number's absolute value. Seventeen digits always suffice. -/
def shortest (x : Binary64) : Decimal :=
  if x.mantissa = 0 then ⟨0, 0⟩
  else
    let (num, den) := scaleUp x.mantissa x.exponent
    match x.firstGrid (magnitudeTen num den) 17 1 with
    | some d => d.strip 18
    | none => ⟨0, 0⟩

end ComponentDoc.Binary64
