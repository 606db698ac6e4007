import ComponentDoc.Decimal.Binary64

/-!
Structured example values: scalars, sequences, and mappings that keep the order of their entries.
Any value may be a key, and a value may carry a tag. Keys agree when they are equal as values; a
mapping built by insertion holds one entry for each key, at the place where the key first stood.
-/

set_option autoImplicit false

namespace ComponentDoc

inductive Value where
  | null
  | bool (b : Bool)
  | int (i : Int)
  | float (x : Binary64)
  | str (s : String)
  | seq (items : List Value)
  | map (entries : List (Value × Value))
  | tagged (tag : String) (content : Value)
  deriving Inhabited, BEq

inductive Kind where
  | null
  | bool
  | integer
  | float
  | string
  | sequence
  | mapping
  deriving DecidableEq

namespace Value

def kind : Value → Kind
  | .null => .null
  | .bool _ => .bool
  | .int _ => .integer
  | .float _ => .float
  | .str _ => .string
  | .seq _ => .sequence
  | .map _ => .mapping
  | .tagged _ v => v.kind

mutual

/-- Equality of values. The entries of a mapping may come in any order. -/
def same : Value → Value → Bool
  | .null, .null => true
  | .bool a, .bool b => a == b
  | .int a, .int b => a == b
  | .float a, .float b => a.same b
  | .str a, .str b => a == b
  | .seq a, .seq b => sameItems a b
  | .map a, .map b => a.length == b.length && sameEntries a b
  | .tagged t a, .tagged u b => t == u && a.same b
  | _, _ => false

def sameItems : List Value → List Value → Bool
  | [], [] => true
  | a :: as, b :: bs => a.same b && sameItems as bs
  | _, _ => false

def sameEntries : List (Value × Value) → List (Value × Value) → Bool
  | [], _ => true
  | (k, v) :: es, fs => fs.any (fun (j, w) => k.same j && v.same w) && sameEntries es fs

end

/-- Stores a value under a key: in place of the value that the key has, else at the end. -/
def insert (k v : Value) : List (Value × Value) → List (Value × Value)
  | [] => [(k, v)]
  | (j, w) :: es => if j.same k then (j, v) :: es else (j, w) :: insert k v es

def insertAll (entries : List (Value × Value)) : List (Value × Value) → List (Value × Value)
  | [] => entries
  | (k, v) :: es => insertAll (insert k v entries) es

def ofEntries (entries : List (Value × Value)) : Value := .map (insertAll [] entries)

def wrap (key : String) (v : Value) : Value := .map [(.str key, v)]

end Value

end ComponentDoc
