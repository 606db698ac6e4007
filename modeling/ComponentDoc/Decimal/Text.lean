import ComponentDoc.Decimal.Shortest

set_option autoImplicit false

namespace ComponentDoc.Binary64
open ComponentDoc.Decimal

def signed (negative : Bool) (cs : List Char) : List Char := if negative then '-' :: cs else cs

def placePoint (ds : List Char) (point : Int) : List Char :=
  match point with
  | .negSucc k => '0' :: '.' :: (List.replicate (k + 1) '0' ++ ds)
  | .ofNat 0 => '0' :: '.' :: ds
  | .ofNat k =>
    if ds.length ≤ k then ds ++ List.replicate (k - ds.length) '0' ++ ['.', '0']
    else ds.take k ++ '.' :: ds.drop k

def withExponent (ds : List Char) (e : Int) : List Char :=
  match ds with
  | [] => []
  | [d] => d :: 'e' :: intText e
  | d :: rest => d :: '.' :: (rest ++ 'e' :: intText e)

/-- The text of a finite number: positional while the point lies after the fifth zero and before
the seventeenth place. -/
def finiteText (x : Binary64) : List Char :=
  let d := x.shortest
  if d.digits = 0 then signed x.negative ['0', '.', '0']
  else
    let ds := digits d.digits
    let point := (ds.length : Int) + d.exponent
    signed x.negative
      (if -5 < point ∧ point ≤ 16 then placePoint ds point else withExponent ds (point - 1))

def text (x : Binary64) : List Char :=
  if x.isNaN then ".nan".toList
  else if x.isInfinite then (if x.negative then "-.inf".toList else ".inf".toList)
  else x.finiteText

def plainText (x : Binary64) : List Char :=
  if x.isNaN then "NaN".toList
  else if x.isInfinite then (if x.negative then "-inf".toList else "inf".toList)
  else
    let d := x.shortest
    if d.digits = 0 then signed x.negative ['0', '.', '0']
    else
      let ds := digits d.digits
      signed x.negative (placePoint ds ((ds.length : Int) + d.exponent))

def spanDigits (cs : List Char) : List Char × List Char := cs.span isDigit

def readExponent : List Char → Option Int
  | [] => some 0
  | c :: cs =>
    if c = 'e' ∨ c = 'E' then
      match cs with
      | '-' :: ds => (readDigits 10 ds).map (fun n => -(n : Int))
      | '+' :: ds => (readDigits 10 ds).map (fun n => (n : Int))
      | ds => (readDigits 10 ds).map (fun n => (n : Int))
    else none

def readUnsigned (negative : Bool) (cs : List Char) : Option Binary64 :=
  let (whole, rest) := spanDigits cs
  let (part, rest) := match rest with
    | '.' :: r => spanDigits r
    | r => ([], r)
  match readDigits 10 (whole ++ part), readExponent rest with
  | some m, some e => some (ofDecimal negative m (e - part.length) (whole ++ part).length)
  | _, _ => none

/-- A finite number in decimal notation; what overflows is not read. -/
def read (cs : List Char) : Option Binary64 :=
  let x := match cs with
    | '-' :: ds => readUnsigned true ds
    | '+' :: ds => readUnsigned false ds
    | ds => readUnsigned false ds
  x.filter isFinite

def ofText (cs : List Char) : Option Binary64 :=
  if cs = ".nan".toList then some nan
  else if cs = ".inf".toList then some (infinity false)
  else if cs = "-.inf".toList then some (infinity true)
  else read cs

end ComponentDoc.Binary64
