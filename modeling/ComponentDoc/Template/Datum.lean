import ComponentDoc.Decimal.Text
import ComponentDoc.Text.Character

set_option autoImplicit false

namespace ComponentDoc.Template

inductive Datum where
  | nil
  | empty
  | blank
  | bool (b : Bool)
  | int (i : Int)
  | decimal (x : Binary64)
  | text (s : List Char)
  | list (items : List Datum)
  | record (members : List (String × Datum))
  deriving Inhabited

inductive Comparison where
  | equal
  | unequal
  | less
  | greater
  | atMost
  | atLeast
  | contains
  deriving DecidableEq

namespace Datum

def decimalText (x : Binary64) : List Char :=
  match x.plainText.reverse with
  | '0' :: '.' :: ds => ds.reverse
  | ds => ds.reverse

mutual

def render : Datum → List Char
  | .nil => []
  | .empty => []
  | .blank => []
  | .bool b => (if b then "true" else "false").toList
  | .int i => Decimal.intText i
  | .decimal x => decimalText x
  | .text s => s
  | .list items => renderItems items
  | .record members => renderMembers members

def renderItems : List Datum → List Char
  | [] => []
  | d :: ds => d.render ++ renderItems ds

def renderMembers : List (String × Datum) → List Char
  | [] => []
  | (k, d) :: ms => k.toList ++ d.render ++ renderMembers ms

end

def isTrue : Datum → Bool
  | .nil => false
  | .empty => false
  | .blank => false
  | .bool b => b
  | _ => true

def isScalar : Datum → Bool
  | .bool _ => true
  | .int _ => true
  | .decimal _ => true
  | .text _ => true
  | _ => false

def size : Datum → Int
  | .list items => items.length
  | .record members => members.length
  | d => Text.octetCount d.render

def at? (items : List Datum) (i : Int) : Option Datum :=
  let i := if 0 ≤ i then i else items.length + i
  if i < 0 then none else items[i.toNat]?

def position : Datum → Option Int
  | .int i => some i
  | .text ('-' :: ds) => (Decimal.readDigits 10 ds).map (fun n => -(n : Int))
  | .text ('+' :: ds) => (Decimal.readDigits 10 ds).map (fun n => (n : Int))
  | .text ds => (Decimal.readDigits 10 ds).map (fun n => (n : Int))
  | _ => none

def sizeWord : List Char := "size".toList

/-- What a datum has under an index, which is a scalar. -/
def index (d key : Datum) : Option Datum :=
  if !key.isScalar then none
  else match d with
  | .list items =>
    match key.position with
    | some i => at? items i
    | none =>
      if key.render = "first".toList then items.head?
      else if key.render = "last".toList then items.getLast?
      else if key.render = sizeWord then some (.int items.length)
      else none
  | .record members =>
    match members.lookup (String.ofList key.render) with
    | some m => some m
    | none => if key.render = sizeWord then some (.int members.length) else none
  | .nil => none
  | .empty => none
  | .blank => none
  | d => if key.render = sizeWord then some (.int (Text.octetCount d.render)) else none

def isEmpty : Datum → Bool
  | .text s => s.isEmpty
  | .list items => items.isEmpty
  | .record members => members.isEmpty
  | .empty => true
  | _ => false

def isBlank : Datum → Bool
  | .nil => true
  | .bool b => !b
  | .text s => s.all Text.isBlank
  | .list items => items.isEmpty
  | .record members => members.isEmpty
  | .empty => true
  | .blank => true
  | _ => false

def number : Datum → Option Binary64
  | .int i => some (.ofInt i)
  | .decimal x => some x
  | _ => none

/-- Whether two scalars are equal. Against a truth value, every other scalar counts as true. -/
def equalScalars (a b : Datum) : Bool :=
  match a, b with
  | .text s, .text t => s == t
  | .int i, .int j => i == j
  | .bool x, .bool y => x == y
  | .bool x, _ => x
  | _, .bool y => y
  | a, b =>
    match a.number, b.number with
    | some x, some y => x.orderKey == y.orderKey
    | _, _ => false

/-- Whether two data, not both scalars nor of one kind, are equal: a truth value is equal to all that
counts as it does. -/
def equalTruth (a b : Datum) : Bool :=
  match a, b with
  | .bool x, d => d.isTrue == x
  | d, .bool y => d.isTrue == y
  | _, _ => false

mutual

def equal : Datum → Datum → Bool
  | .nil, .nil => true
  | .empty, d => d.isEmpty
  | .blank, d => d.isBlank
  | .list as, .list bs => equalItems as bs
  | .record as, .record bs => as.length == bs.length && equalMembers as bs
  | a, .empty => a.isEmpty
  | a, .blank => a.isBlank
  | a, b => if a.isScalar && b.isScalar then equalScalars a b else equalTruth a b

def equalItems : List Datum → List Datum → Bool
  | [], [] => true
  | a :: as, b :: bs => equal a b && equalItems as bs
  | _, _ => false

def equalMembers : List (String × Datum) → List (String × Datum) → Bool
  | [], _ => true
  | (k, a) :: as, bs => bs.any (fun (j, b) => j == k && equal a b) && equalMembers as bs

end

def orderScalars (a b : Datum) : Option Ordering :=
  match a, b with
  | .text s, .text t => some (compare (String.ofList s) (String.ofList t))
  | .int i, .int j => some (compare i j)
  | .bool x, .bool y => some (compare x.toNat y.toNat)
  | a, b =>
    match a.number, b.number with
    | some x, some y => some (compare x.orderKey y.orderKey)
    | _, _ => none

mutual

/-- The order of two data of one kind; lists are ordered by their first items that differ. -/
def order : Datum → Datum → Option Ordering
  | .list as, .list bs => orderItems as bs
  | a, b => orderScalars a b

def orderItems : List Datum → List Datum → Option Ordering
  | [], [] => some .eq
  | [], _ => some .lt
  | _, [] => some .gt
  | a :: as, b :: bs =>
    match order a b with
    | some .eq => orderItems as bs
    | o => o

end

def occursIn (s : List Char) : List Char → Bool
  | [] => s.isEmpty
  | c :: cs => s.isPrefixOf (c :: cs) || occursIn s cs

def compareBy (c : Comparison) (a b : Datum) : Option Bool :=
  match c with
  | .equal => some (a.equal b)
  | .unequal => some (!a.equal b)
  | .less => some (a.order b == some .lt)
  | .greater => some (a.order b == some .gt)
  | .atMost => some (a.order b == some .lt || a.order b == some .eq)
  | .atLeast => some (a.order b == some .gt || a.order b == some .eq)
  | .contains =>
    match a with
    | .list items => some (items.any (equal · b))
    | .record members =>
      some (b.isScalar && (members.lookup (String.ofList b.render)).isSome)
    | a => if a.isScalar then some (occursIn b.render a.render) else none

end Datum

end ComponentDoc.Template
