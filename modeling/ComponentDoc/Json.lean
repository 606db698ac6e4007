import ComponentDoc.Decimal.Digits

set_option autoImplicit false

namespace ComponentDoc

inductive Json where
  | bool (b : Bool)
  | str (s : String)
  | list (items : List Json)
  | record (members : List (String × Json))

namespace Json

/-- Quotes, backslashes and controls are escaped, all other characters stand for themselves. -/
def escapeChar (c : Char) : List Char :=
  match c with
  | '"' => ['\\', '"']
  | '\\' => ['\\', '\\']
  | '\x08' => ['\\', 'b']
  | '\t' => ['\\', 't']
  | '\n' => ['\\', 'n']
  | '\x0c' => ['\\', 'f']
  | '\r' => ['\\', 'r']
  | c =>
    if c.toNat < 0x20 then
      let ds := Decimal.hexDigits c.toNat
      ['\\', 'u'] ++ List.replicate (4 - ds.length) '0' ++ ds
    else [c]

def quoted (s : String) : List Char := '"' :: (s.toList.flatMap escapeChar ++ ['"'])

def newLine (depth : Nat) : List Char := '\n' :: List.replicate (2 * depth) ' '

mutual

def print (depth : Nat) : Json → List Char
  | .bool b => (if b then "true" else "false").toList
  | .str s => quoted s
  | .list [] => ['[', ']']
  | .list (j :: js) =>
    '[' :: newLine (depth + 1) ++ print (depth + 1) j ++ printItems (depth + 1) js ++
      newLine depth ++ [']']
  | .record [] => ['\x7b', '\x7d']
  | .record ((k, j) :: ms) =>
    '\x7b' :: newLine (depth + 1) ++ quoted k ++ ':' :: ' ' :: print (depth + 1) j ++
      printMembers (depth + 1) ms ++ newLine depth ++ ['\x7d']

def printItems (depth : Nat) : List Json → List Char
  | [] => []
  | j :: js => ',' :: newLine depth ++ print depth j ++ printItems depth js

def printMembers (depth : Nat) : List (String × Json) → List Char
  | [] => []
  | (k, j) :: ms =>
    ',' :: newLine depth ++ quoted k ++ ':' :: ' ' :: print depth j ++ printMembers depth ms

end

def text (j : Json) : String := String.ofList (print 0 j)

end Json

end ComponentDoc
