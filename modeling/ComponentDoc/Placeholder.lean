/-!
Placeholders in a text: a name between double braces stands for the value of a variable. All are
replaced at once, and a placeholder whose name is unknown stays as it is.
-/

set_option autoImplicit false

namespace ComponentDoc.Placeholder

/-- A text taken apart: single characters, and placeholders by their names. -/
inductive Piece where
  | char (c : Char)
  | slot (name : List Char)
  deriving DecidableEq

def isNameStart (c : Char) : Bool := c.isAlpha || c == '_'

def isNameChar (c : Char) : Bool := c.isAlphanum || c == '_'

def isName : List Char → Bool
  | [] => false
  | c :: cs => isNameStart c && cs.all isNameChar

def written (name : List Char) : List Char := '\x7b' :: '\x7b' :: (name ++ ['\x7d', '\x7d'])

def slotAt : List Char → Option (List Char)
  | '\x7b' :: '\x7b' :: cs =>
    let name := cs.takeWhile isNameChar
    if isName name && ['\x7d', '\x7d'].isPrefixOf (cs.drop name.length) then some name else none
  | _ => none

/-- Takes a text apart from left to right, passing over the characters of a placeholder. -/
def scan : Nat → List Char → List Piece
  | _, [] => []
  | k + 1, _ :: cs => scan k cs
  | 0, c :: cs =>
    match slotAt (c :: cs) with
    | some name => .slot name :: scan (name.length + 3) cs
    | none => .char c :: scan 0 cs

def pieces (cs : List Char) : List Piece := scan 0 cs

def Piece.fill (value : String → Option String) : Piece → List Char
  | .char c => [c]
  | .slot name =>
    match value (String.ofList name) with
    | some s => s.toList
    | none => written name

def fill (value : String → Option String) (content : String) : String :=
  String.ofList ((pieces content.toList).flatMap (Piece.fill value))

end ComponentDoc.Placeholder
