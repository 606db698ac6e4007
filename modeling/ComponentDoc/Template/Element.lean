import ComponentDoc.Template.Datum

/-!
The elements of a template's source: text, outputs between double braces, and tags between braces with
percent signs. A hyphen inside a mark takes away the blanks on that side of it. Words in an output or a
tag are values with filters behind them, or operators.
-/

set_option autoImplicit false

namespace ComponentDoc.Template
open ComponentDoc.Decimal

inductive Expr where
  | literal (d : Datum)
  | variable (name : String) (indices : List Expr)
  deriving Inhabited

structure FilterCall where
  name : String
  arguments : List (Option String × Expr)

structure Chain where
  start : Expr
  filters : List FilterCall

/-- A word of a tag, with its source. -/
inductive Word where
  | chain (c : Chain) (source : List Char)
  | operator (s : String)

inductive Element where
  | text (cs : List Char)
  | output (c : Chain) (source : List Char)
  | tag (name : String) (words : List Word) (source : List Char)
  | invalid (source : List Char)

def Element.source : Element → List Char
  | .text cs => cs
  | .output _ s => s
  | .tag _ _ s => s
  | .invalid s => s

abbrev Reader (α : Type) := List Char → Option (α × List Char)

/-- Spaces and line ends, but no tabs. -/
def isGap (c : Char) : Bool := c == ' ' || c == '\n' || c == '\r'

def skipGap (cs : List Char) : List Char := cs.dropWhile isGap

def endsMark : List Char → Bool
  | '-' :: '\x7d' :: '\x7d' :: _ => true
  | '-' :: '%' :: '\x7d' :: _ => true
  | _ => false

def nameChars : Bool → List Char → List Char
  | _, [] => []
  | first, c :: cs =>
    if c.isAlpha || c == '_' || !first && c.isDigit || c == '-' && !endsMark (c :: cs) then
      c :: nameChars false cs
    else []

def name : Reader (List Char) := fun cs =>
  let n := nameChars true cs
  if n.isEmpty then none else some (n, cs.drop n.length)

def quotedText (quote : Char) (cs : List Char) : Option (Expr × List Char) :=
  let s := cs.takeWhile (· != quote)
  match cs.drop s.length with
  | _ :: r => some (.literal (.text s), r)
  | [] => none

def number (cs : List Char) : Option (Expr × List Char) := do
  let (negative, r) := match cs with
    | '-' :: r => (true, r)
    | '+' :: r => (false, r)
    | r => (false, r)
  let whole := r.takeWhile Decimal.isDigit
  let n ← readDigits 10 whole
  let r := r.drop whole.length
  let int : Expr := .literal (.int (if negative then -(n : Int) else n))
  match r with
  | '.' :: r' =>
    let part := r'.takeWhile Decimal.isDigit
    match readDigits 10 (whole ++ part), part.isEmpty with
    | some m, false =>
      let x := Binary64.ofDecimal negative m (-(part.length : Int)) (whole ++ part).length
      return (.literal (.decimal x), r'.drop part.length)
    | _, _ => return (int, r)
  | r => return (int, r)

def constants : List (List Char × Datum) :=
  [("nil".toList, .nil), ("null".toList, .nil), ("empty".toList, .empty), ("blank".toList, .blank),
    ("true".toList, .bool true), ("false".toList, .bool false)]

/-- A word that stands for data. No name begins with one: what follows it is not part of it. -/
def constant (cs : List Char) : Option (Expr × List Char) :=
  (constants.find? (fun (w, _) => w.isPrefixOf cs)).map
    (fun (w, d) => (.literal d, cs.drop w.length))

mutual

def expr : Nat → Reader Expr
  | 0, _ => none
  | fuel + 1, cs =>
    match cs with
    | '\'' :: r => quotedText '\'' r
    | '"' :: r => quotedText '"' r
    | cs =>
      match (number cs).or (constant cs) with
      | some found => some found
      | none => do
        let (n, r) ← name cs
        let (is, r) ← indices fuel r
        return (.variable (String.ofList n) is, r)

def indices : Nat → Reader (List Expr)
  | 0, _ => none
  | fuel + 1, cs =>
    match cs with
    | '.' :: r =>
      match name r with
      | some (n, r) => do
        let (is, r) ← indices fuel r
        return (.literal (.text n) :: is, r)
      | none => some ([], cs)
    | '[' :: r =>
      match expr fuel (skipGap r) with
      | some (e, r) =>
        match skipGap r with
        | ']' :: r => do
          let (is, r) ← indices fuel r
          return (e :: is, r)
        | _ => some ([], cs)
      | none => some ([], cs)
    | cs => some ([], cs)

end

def argument (fuel : Nat) (cs : List Char) : Option ((Option String × Expr) × List Char) :=
  let named := do
    let (n, r) ← name cs
    match skipGap r with
    | ':' :: r => do
      let (e, r) ← expr fuel (skipGap r)
      return ((some (String.ofList n), e), r)
    | _ => none
  named.or ((expr fuel cs).map (fun (e, r) => ((none, e), r)))

def arguments : Nat → Reader (List (Option String × Expr))
  | 0, _ => none
  | fuel + 1, cs => do
    let (a, r) ← argument fuel (skipGap cs)
    match skipGap r with
    | ',' :: r' =>
      match arguments fuel r' with
      | some (as, r) => return (a :: as, r)
      | none => return ([a], r)
    | _ => return ([a], r)

def filters : Nat → Reader (List FilterCall)
  | 0, _ => none
  | fuel + 1, cs =>
    match skipGap cs with
    | '|' :: r =>
      match name (skipGap r) with
      | none => some ([], cs)
      | some (n, r) =>
        let (as, r) := match skipGap r with
          | ':' :: r' => (arguments fuel r').getD ([], r)
          | _ => ([], r)
        match filters fuel r with
        | some (fs, r) => some (⟨String.ofList n, as⟩ :: fs, r)
        | none => none
    | _ => some ([], cs)

def chain (cs : List Char) : Option (Chain × List Char) := do
  let fuel := cs.length + 1
  let (e, r) ← expr fuel cs
  let (fs, r) ← filters fuel r
  return (⟨e, fs⟩, r)

def operators : List String := ["==", "!=", "<>", "<=", ">=", "<", ">", "=", ",", ":"]

def operator (cs : List Char) : Option (String × List Char) :=
  (operators.find? (fun o => o.toList.isPrefixOf cs)).map (fun o => (o, cs.drop o.length))

def word (cs : List Char) : Option (Word × List Char) :=
  match chain cs with
  | some (c, r) => some (.chain c (cs.take (cs.length - r.length)), r)
  | none => (operator cs).map (fun (o, r) => (.operator o, r))

def words : Nat → List Char → List Word × List Char
  | 0, cs => ([], cs)
  | fuel + 1, cs =>
    match word (skipGap cs) with
    | some (w, r) =>
      let (ws, r) := words fuel r
      (w :: ws, r)
    | none => ([], cs)

def opening (mark : Char) (cs : List Char) : Option (List Char) :=
  match skipGap cs with
  | '\x7b' :: c :: '-' :: r => if c = mark then some r else none
  | _ =>
    match cs with
    | '\x7b' :: c :: r => if c = mark then some r else none
    | _ => none

def closing (mark : Char) (cs : List Char) : Option (List Char) :=
  match skipGap cs with
  | '-' :: c :: '\x7d' :: r => if c = mark then some (skipGap r) else none
  | c :: '\x7d' :: r => if c = mark then some r else none
  | _ => none

def before (cs rest : List Char) : List Char := cs.take (cs.length - rest.length)

def marked (cs : List Char) : Option (Element × List Char) :=
  match opening '\x7b' cs with
  | some r =>
    some (((chain (skipGap r)).bind (fun (c, r) =>
        (closing '\x7d' r).map (fun r => (.output c (before cs r), r)))).getD
      (.invalid (before cs r), r))
  | none =>
    match opening '%' cs with
    | some r =>
      some (((name (skipGap r)).bind (fun (n, r) =>
          let (ws, r) := words r.length r
          (closing '%' r).map (fun r => (.tag (String.ofList n) ws (before cs r), r)))).getD
        (.invalid (before cs r), r))
    | none => none

/-- The elements of a source, given the text just read in front of it, last character first. -/
def split : Nat → List Char → List Char → List Element
  | 0, _, _ => []
  | fuel + 1, text, cs =>
    let held := if text.isEmpty then [] else [Element.text text.reverse]
    match cs with
    | [] => held
    | c :: r =>
      match marked (c :: r) with
      | some (e, r) => held ++ e :: split fuel [] r
      | none => split fuel (c :: text) r

def elements (source : List Char) : List Element := split (source.length + 1) [] source

end ComponentDoc.Template
