import ComponentDoc.Decimal.Text
import ComponentDoc.Toml.Text

set_option autoImplicit false

namespace ComponentDoc.Toml
open ComponentDoc.Decimal

def digitRun (isOne : Char → Bool) : List Char → Option (List Char × List Char)
  | [] => none
  | c :: cs =>
    if isOne c then
      match cs with
      | '_' :: r => (digitRun isOne r).map (fun (ds, rest) => (c :: ds, rest))
      | [] => some ([c], [])
      | d :: r =>
        if isOne d then (digitRun isOne (d :: r)).map (fun (ds, rest) => (c :: ds, rest))
        else some ([c], d :: r)
    else none

def sign : List Char → Bool × List Char
  | '-' :: cs => (true, cs)
  | '+' :: cs => (false, cs)
  | cs => (false, cs)

def wholeDigits : List Char → Option (List Char × List Char)
  | '0' :: cs => some (['0'], cs)
  | cs => digitRun isDigit cs

def fitsInteger (negative : Bool) (n : Nat) : Bool :=
  if negative then decide (n ≤ Nat.pow 2 63) else decide (n < Nat.pow 2 63)

def integer (cs : List Char) : Option (List Char) := do
  let marked (radix : Nat) (isOne : Char → Bool) (r : List Char) : Option (List Char) := do
    let (ds, r) ← digitRun isOne r
    let n ← readDigits radix ds
    if fitsInteger false n then some r else none
  match cs with
  | '0' :: 'x' :: r => marked 16 isHexDigit r
  | '0' :: 'o' :: r => marked 8 (fun c => decide ('0' ≤ c ∧ c ≤ '7')) r
  | '0' :: 'b' :: r => marked 2 (fun c => c == '0' || c == '1') r
  | cs => do
    let (negative, r) := sign cs
    let (ds, r) ← wholeDigits r
    let n ← readDigits 10 ds
    if fitsInteger negative n then some r else none

def fractionDigits : List Char → Option (List Char × List Char)
  | '.' :: cs => (digitRun isDigit cs).map (fun (ds, r) => ('.' :: ds, r))
  | cs => some ([], cs)

def exponentDigits : List Char → Option (List Char × List Char)
  | c :: cs =>
    if c = 'e' ∨ c = 'E' then
      let (negative, r) := sign cs
      (digitRun isDigit r).map (fun (ds, r) => ('e' :: ((if negative then ['-'] else []) ++ ds), r))
    else some ([], c :: cs)
  | [] => some ([], [])

/-- A number with a point or an exponent, which must not overflow upwards. -/
def float (cs : List Char) : Option (List Char) := do
  let (negative, r) := sign cs
  match r with
  | 'i' :: 'n' :: 'f' :: r => some r
  | 'n' :: 'a' :: 'n' :: r => some r
  | r => do
    let (whole, r) ← wholeDigits r
    let (part, r) ← fractionDigits r
    let (exponent, r) ← exponentDigits r
    if part.isEmpty && exponent.isEmpty then none
    else if !negative && (Binary64.read (whole ++ part ++ exponent)).isNone then none
    else some r

def boundedDigits (count lo hi : Nat) (cs : List Char) : Option (Nat × List Char) := do
  let ds := cs.take count
  let n ← if ds.length = count ∧ ds.all isDigit then readDigits 10 ds else none
  if lo ≤ n ∧ n ≤ hi then return (n, cs.drop count) else none

def isLeapYear (y : Nat) : Bool := y % 4 == 0 && (y % 100 != 0 || y % 400 == 0)

def daysIn (year month : Nat) : Nat :=
  if month = 2 then (if isLeapYear year then 29 else 28)
  else if month ∈ [4, 6, 9, 11] then 30
  else 31

def expect (c : Char) : List Char → Option (List Char)
  | d :: cs => if c = d then some cs else none
  | [] => none

def date (cs : List Char) : Option (List Char) := do
  let (year, r) ← boundedDigits 4 0 9999 cs
  let (month, r) ← boundedDigits 2 1 12 (← expect '-' r)
  let (_, r) ← boundedDigits 2 1 (daysIn year month) (← expect '-' r)
  return r

def time (cs : List Char) : Option (List Char) := do
  let (_, r) ← boundedDigits 2 0 23 cs
  let (_, r) ← boundedDigits 2 0 59 (← expect ':' r)
  let (_, r) ← boundedDigits 2 0 60 (← expect ':' r)
  match r with
  | '.' :: r =>
    let ds := r.takeWhile isDigit
    if ds.isEmpty then none else some (r.drop ds.length)
  | r => some r

def offset : List Char → Option (List Char)
  | 'Z' :: cs => some cs
  | 'z' :: cs => some cs
  | c :: cs =>
    if c = '+' ∨ c = '-' then do
      let (_, r) ← boundedDigits 2 0 23 cs
      let (_, r) ← boundedDigits 2 0 59 (← expect ':' r)
      return r
    else some (c :: cs)
  | [] => some []

def dateTime (cs : List Char) : Option (List Char) :=
  match date cs with
  | some (c :: r) =>
    if c = 'T' ∨ c = 't' then do offset (← time r)
    else if c = ' ' ∧ (r.head?.map isDigit).getD false then do offset (← time r)
    else some (c :: r)
  | some [] => some []
  | none => time cs

end ComponentDoc.Toml
