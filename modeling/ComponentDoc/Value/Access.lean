import ComponentDoc.Value
import ComponentDoc.Decimal.Text

/-!
Access to values by the text of their keys. A scalar key reads as its text, so the key `1` answers
to the name `"1"`; an exact string key comes before any other key of the same text. Dotted paths
index mappings by key and sequences by position, and tags are looked through everywhere.
-/

set_option autoImplicit false

namespace ComponentDoc

namespace Path

def segments : List Char → List (List Char)
  | [] => [[]]
  | c :: cs =>
    if c = '.' then [] :: segments cs
    else match segments cs with
      | [] => [[c]]
      | s :: ss => (c :: s) :: ss

end Path

namespace Value

def boolText (b : Bool) : String := if b then "true" else "false"

/-- The text that a key reads as. Null, sequences and mappings have none. -/
def keyText : Value → Option String
  | .str s => some s
  | .int i => some (String.ofList (Decimal.intText i))
  | .float x => some (String.ofList x.text)
  | .bool b => some (boolText b)
  | .tagged _ v => v.keyText
  | _ => none

def asMapping : Value → Option (List (Value × Value))
  | .map es => some es
  | .tagged _ v => v.asMapping
  | _ => none

def findExact (name : String) : List (Value × Value) → Option Value
  | [] => none
  | (.str s, v) :: es => if s = name then some v else findExact name es
  | _ :: es => findExact name es

/-- The value under the first key that reads as a name. -/
def findText (name : String) : List (Value × Value) → Option Value
  | [] => none
  | (k, v) :: es => if k.keyText = some name then some v else findText name es

def findKey (name : String) (es : List (Value × Value)) : Option Value :=
  (findExact name es).or (findText name es)

def getKey (v : Value) (name : String) : Option Value := v.asMapping.bind (findKey name)

def keyTexts (es : List (Value × Value)) : List String := es.filterMap (fun e => e.1.keyText)

def childKeys (v : Value) : List String := (v.asMapping.map keyTexts).getD []

/-- A position in a sequence: digits, with an optional plus sign, that fit in 64 bits. -/
def readPosition (cs : List Char) : Option Nat :=
  let ds := match cs with
    | '+' :: r => r
    | r => r
  if ds.all Decimal.isDigit then (Decimal.readDigits 10 ds).filter (fun n => decide (n < Nat.pow 2 64))
  else none

def step (segment : List Char) : Value → Option Value
  | .map es => findKey (String.ofList segment) es
  | .seq vs => (readPosition segment).bind (fun i => vs[i]?)
  | .tagged _ v => v.step segment
  | _ => none

def follow : Value → List (List Char) → Option Value
  | v, [] => some v
  | v, s :: ss => (v.step s).bind (fun w => w.follow ss)

def lookup (v : Value) (path : String) : Option Value :=
  if path = "" then some v else v.follow (Path.segments path.toList)

end Value

end ComponentDoc
