set_option autoImplicit false

namespace ComponentDoc.Yaml

inductive Style where
  | plain
  | single
  | double
  | literal
  | folded
  deriving DecidableEq

abbrev Octets := List UInt8

structure Properties where
  anchor : Option Nat := none
  tag : Option Octets := none
  deriving DecidableEq

inductive Node where
  | scalar (properties : Properties) (style : Style) (text : List Char)
  | seq (properties : Properties) (items : List Node)
  | map (properties : Properties) (entries : List (Node × Node))
  | alias (anchor : Nat)
  | cut
  deriving Inhabited

namespace Octets

def ofText (s : String) : Octets := s.toUTF8.toList

def bang : UInt8 := 0x21

def untilZero (bs : Octets) : Octets := bs.takeWhile (· != 0)

/-- The tag that a name stands for. A name that has a mark already keeps it. -/
def ofName (name : String) : Octets :=
  untilZero (match ofText name with
    | b :: bs => if b = bang then b :: bs else bang :: b :: bs
    | [] => [bang])

def unmarked : Octets → Octets
  | b :: c :: cs => if b = bang then c :: cs else b :: c :: cs
  | bs => bs

def toText (bs : Octets) : Option String := String.fromUTF8? ⟨bs.toArray⟩

/-- What a tag of the document's own says after its mark, none for a tag of a schema. -/
def localText (tag : Octets) : Option String :=
  if tag.head? = some bang then toText (unmarked tag) else none

def localName (tag : Octets) : Option String :=
  if tag.head? = some bang then toText (unmarked (unmarked tag)) else none

end Octets

/-- A tag as written: a handle, empty for a tag in full, and the octets after it. -/
structure TagToken where
  handle : List Char
  suffix : Octets
  deriving DecidableEq

inductive Token where
  | version (major minor : Nat)
  | tagHandle (handle : List Char) (start : Octets)
  | documentStart
  | documentEnd
  | streamEnd
  | blockSequenceStart
  | blockMappingStart
  | blockEnd
  | blockEntry
  | flowSequenceStart
  | flowSequenceEnd
  | flowMappingStart
  | flowMappingEnd
  | flowEntry
  | key
  | value
  | alias (name : List Char)
  | anchor (name : List Char)
  | tag (tag : TagToken)
  | scalar (style : Style) (text : List Char)
  deriving DecidableEq

end ComponentDoc.Yaml
