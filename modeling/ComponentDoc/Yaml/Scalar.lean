import ComponentDoc.Decimal.Text

set_option autoImplicit false

namespace ComponentDoc.Yaml
open ComponentDoc.Decimal

inductive Scalar where
  | null
  | bool (b : Bool)
  | int (i : Int)
  | tooLarge (i : Int)
  | float (x : Binary64)
  | text
  deriving DecidableEq

namespace Scalar

def nullWords : List (List Char) := ["null", "Null", "NULL", "~"].map String.toList

def trueWords : List (List Char) := ["true", "True", "TRUE"].map String.toList

def falseWords : List (List Char) := ["false", "False", "FALSE"].map String.toList

def readNull (cs : List Char) : Bool := nullWords.contains cs

def readBool (cs : List Char) : Option Bool :=
  if trueWords.contains cs then some true
  else if falseWords.contains cs then some false
  else none

def hasNeedlessZero (cs : List Char) : Bool :=
  let ds := match cs with
    | '-' :: r => r
    | '+' :: r => r
    | r => r
  match ds with
  | '0' :: d :: r => (d :: r).all isDigit
  | _ => false

def startsSigned : List Char → Bool
  | '+' :: _ => true
  | '-' :: _ => true
  | _ => false

def readMarked (cs : List Char) : Option Nat :=
  match cs with
  | '0' :: 'x' :: ds => readDigits 16 ds
  | '0' :: 'o' :: ds => readDigits 8 ds
  | '0' :: 'b' :: ds => readDigits 2 ds
  | ds => readDigits 10 ds

def readInteger (cs : List Char) : Option Int :=
  if hasNeedlessZero cs then none
  else match cs with
    | '-' :: ds => (readMarked ds).map (fun n => -(n : Int))
    | '+' :: ds => (readMarked ds).map (fun n => (n : Int))
    | ds => (readMarked ds).map (fun n => (n : Int))

/-- Integers are held from the least signed to the greatest unsigned one of 64 bits, and recognised
as such up to 128 bits. -/
def ofInteger (i : Int) : Option Scalar :=
  if -(Nat.pow 2 63 : Int) ≤ i ∧ i < Nat.pow 2 64 then some (.int i)
  else if -(Nat.pow 2 127 : Int) ≤ i ∧ i < Nat.pow 2 128 then some (.tooLarge i)
  else none

def readFloat (cs : List Char) : Option Binary64 :=
  let bare := match cs with
    | '+' :: r => r
    | r => r
  if cs.head? = some '+' ∧ startsSigned bare then none
  else if bare ∈ [".inf", ".Inf", ".INF"].map String.toList then some (Binary64.infinity false)
  else if cs ∈ ["-.inf", "-.Inf", "-.INF"].map String.toList then some (Binary64.infinity true)
  else if cs ∈ [".nan", ".NaN", ".NAN"].map String.toList then some Binary64.nan
  else Binary64.read bare

def ofPlain (cs : List Char) : Scalar :=
  if cs = [] ∨ readNull cs then .null
  else match readBool cs with
    | some b => .bool b
    | none =>
      match (readInteger cs).bind ofInteger with
      | some s => s
      | none =>
        if hasNeedlessZero cs then .text
        else match readFloat cs with
          | some x => .float x
          | none => .text

end Scalar

end ComponentDoc.Yaml
