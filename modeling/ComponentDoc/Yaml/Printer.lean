import ComponentDoc.Text.Character
import ComponentDoc.Yaml.Letter
import ComponentDoc.Yaml.Node

/-!
The written form of a document, in block style and without a limit on the width of lines. Levels are
two columns apart; a sequence in a mapping stands at the column of its key. A scalar is written in
the style its node asks for, or in the next one that can hold its text.
-/

set_option autoImplicit false

namespace ComponentDoc.Yaml

def hasPair (p q : Char → Bool) : List Char → Bool
  | c :: d :: cs => p c && q d || hasPair p q (d :: cs)
  | _ => false

def isSpace (c : Char) : Bool := c == ' '

def isMultiline (cs : List Char) : Bool := cs.any isBreak

def startsWith (start cs : List Char) : Bool := start.isPrefixOf cs

def isIndicator (c : Char) : Bool := "#,[]\x7b\x7d&*!|>'\"%@`".toList.contains c

def hasInnerIndicator (before : Char) : List Char → Bool
  | [] => false
  | c :: cs =>
    c == ':' && isGap cs.head? || c == '#' && isGap (some before) || hasInnerIndicator c cs

def hasIndicator (cs : List Char) : Bool :=
  startsWith ['-', '-', '-'] cs || startsWith ['.', '.', '.'] cs ||
  match cs with
  | [] => false
  | c :: r =>
    isIndicator c || (c == '?' || c == ':' || c == '-') && isGap r.head? || hasInnerIndicator c r

namespace Style

def holdsAll (cs : List Char) : Bool := cs.all isPrintable && !hasPair isSpace isBreak cs

def allowsPlain (cs : List Char) : Bool :=
  holdsAll cs && !isMultiline cs && cs.head? != some ' ' && cs.getLast? != some ' ' &&
  !hasIndicator cs

def allowsSingle (cs : List Char) : Bool := holdsAll cs && !hasPair isBreak isSpace cs

def allowsBlock (cs : List Char) : Bool :=
  holdsAll cs && cs.getLast? != some ' ' && !cs.isEmpty

/-- The style a scalar is written in. A key before a colon has no line breaks and is not empty. -/
def settle (style : Style) (key : Bool) (cs : List Char) : Style :=
  let quote := if allowsSingle cs then Style.single else .double
  if key && isMultiline cs then .double
  else match style with
    | .plain => if allowsPlain cs && !(key && cs.isEmpty) then .plain else quote
    | .single => quote
    | .double => .double
    | .literal => if allowsBlock cs && !key then .literal else .double
    | .folded => if allowsBlock cs && !key then .folded else .double

end Style

namespace Printer

def spaces (n : Nat) : List Char := List.replicate n ' '

def isTagOctet (b : UInt8) : Bool :=
  let c := Char.ofNat b.toNat
  isWordChar c || ";/?:@&=+$,.~*'()[]".toList.contains c

def tagOctet (b : UInt8) : List Char :=
  if isTagOctet b then [Char.ofNat b.toNat] else '%' :: Decimal.hexPadded 2 b.toNat

def tagText : Octets → List Char
  | b :: c :: cs =>
    if b = Octets.bang then '!' :: (c :: cs).flatMap tagOctet
    else ['!', '<'] ++ (b :: c :: cs).flatMap tagOctet ++ ['>']
  | bs => ['!', '<'] ++ bs.flatMap tagOctet ++ ['>']

def doubleChar (c : Char) : List Char :=
  if c = '"' then ['\\', '"']
  else if c = '\\' then ['\\', '\\']
  else if isPrintable c && !isBreak c then [c]
  else match c.toNat with
    | 0x00 => ['\\', '0']
    | 0x07 => ['\\', 'a']
    | 0x08 => ['\\', 'b']
    | 0x09 => ['\\', 't']
    | 0x0A => ['\\', 'n']
    | 0x0B => ['\\', 'v']
    | 0x0C => ['\\', 'f']
    | 0x0D => ['\\', 'r']
    | 0x1B => ['\\', 'e']
    | 0x85 => ['\\', 'N']
    | 0x2028 => ['\\', 'L']
    | 0x2029 => ['\\', 'P']
    | n =>
      if n ≤ 0xFF then '\\' :: 'x' :: Decimal.hexPadded 2 n
      else if n ≤ 0xFFFF then '\\' :: 'u' :: Decimal.hexPadded 4 n
      else '\\' :: 'U' :: Decimal.hexPadded 8 n

/-- Between single quotes a quote is written twice, a line feed as an empty line, and the text after
a line break is indented. -/
def singleBody (indent : Nat) (broken : Bool) : List Char → List Char
  | [] => if broken then spaces indent else []
  | c :: cs =>
    if isBreak c then
      (if c = '\n' ∧ !broken then ['\n', '\n'] else [c]) ++ singleBody indent true cs
    else (if broken && !isSpace c then spaces indent else []) ++
      (if c = '\'' then ['\'', '\''] else [c]) ++ singleBody indent (broken && isSpace c) cs

def blockBody (indent : Nat) (broken : Bool) : List Char → List Char
  | [] => []
  | c :: cs =>
    if isBreak c then c :: blockBody indent true cs
    else (if broken then spaces indent else []) ++ c :: blockBody indent false cs

/-- What stands at the head of a block scalar: the indentation if its first line hides it, and how
the line breaks at its end are kept. -/
def blockHints (cs : List Char) : List Char :=
  let shown := match cs with
    | c :: _ => if isSpace c || isBreak c then ['2'] else []
    | [] => []
  let chomp := match cs.reverse with
    | c :: d :: _ => if !isBreak c then ['-'] else if isBreak d then ['+'] else []
    | [c] => if isBreak c then ['+'] else ['-']
    | [] => ['-']
  shown ++ chomp

def scalarText (style : Style) (indent : Nat) (cs : List Char) : List Char :=
  match style with
  | .plain => cs
  | .single => '\'' :: (singleBody indent false cs ++ ['\''])
  | .double => '"' :: (cs.flatMap doubleChar ++ ['"'])
  | .literal => '|' :: (blockHints cs ++ '\n' :: blockBody indent true cs)
  | .folded => '>' :: (blockHints cs ++ '\n' :: blockBody indent true cs)

def lineEnd (style : Style) (cs : List Char) : List Char :=
  match style with
  | .literal | .folded => if (cs.getLast?.map isBreak).getD false then [] else ['\n']
  | _ => ['\n']

/-- Where a node stands: at the root, after the mark of an item, of a key or of a key's value on a
line of its own, or behind the colon of a key. -/
inductive Place where
  | root
  | item
  | key
  | value
  | field
  deriving DecidableEq

def Place.gap : Place → List Char
  | .root => []
  | _ => [' ']

def head (place : Place) (tag : Option Octets) : List Char :=
  match tag with
  | none => place.gap
  | some t => place.gap ++ tagText t ++ [' ']

def opening (place : Place) (tag : Option Octets) (column : Nat) : List Char :=
  match tag with
  | some t => place.gap ++ tagText t ++ '\n' :: spaces column
  | none => if place = .field then '\n' :: spaces column else place.gap

def mapColumn (place : Place) (column : Nat) : Nat := if place = .root then 0 else column + 2

/-- The column of a sequence. In a mapping it is not indented, unless it follows a mark directly. -/
def seqColumn (place : Place) (tag : Option Octets) (column : Nat) : Nat :=
  match place with
  | .root => 0
  | .item => column + 2
  | .field => column
  | .key | .value => if tag.isSome then column else column + 2

def isSimpleKey : Node → Bool
  | .scalar p _ cs => !isMultiline cs && decide ((p.tag.getD []).length + Text.octetCount cs ≤ 128)
  | .seq p [] => decide ((p.tag.getD []).length ≤ 128)
  | .map p [] => decide ((p.tag.getD []).length ≤ 128)
  | _ => false

def simpleKey : Node → List Char
  | .scalar p st cs => head .root p.tag ++ scalarText (st.settle true cs) 0 cs
  | .seq p _ => head .root p.tag ++ ['[', ']']
  | .map p _ => head .root p.tag ++ ['\x7b', '\x7d']
  | _ => []

mutual

def printNode (column : Nat) (place : Place) : Node → List Char
  | .scalar p st cs =>
    head place p.tag ++ scalarText (st.settle false cs) (column + 2) cs ++
      lineEnd (st.settle false cs) cs
  | .seq p [] => head place p.tag ++ ['[', ']', '\n']
  | .map p [] => head place p.tag ++ ['\x7b', '\x7d', '\n']
  | .seq p (n :: ns) =>
    let inner := seqColumn place p.tag column
    opening place p.tag inner ++ '-' :: printNode inner .item n ++ printItems inner ns
  | .map p ((k, v) :: es) =>
    let inner := mapColumn place column
    opening place p.tag inner ++
      (if isSimpleKey k then simpleKey k ++ ':' :: printNode inner .field v
      else '?' :: printNode inner .key k ++ spaces inner ++ ':' :: printNode inner .value v) ++
      printEntries inner es
  | .alias _ => []
  | .cut => []

def printItems (column : Nat) : List Node → List Char
  | [] => []
  | n :: ns => spaces column ++ '-' :: printNode column .item n ++ printItems column ns

def printEntries (column : Nat) : List (Node × Node) → List Char
  | [] => []
  | (k, v) :: es =>
    spaces column ++
      (if isSimpleKey k then simpleKey k ++ ':' :: printNode column .field v
      else '?' :: printNode column .key k ++ spaces column ++ ':' :: printNode column .value v) ++
      printEntries column es

end

end Printer

def Node.print (n : Node) : String := String.ofList (Printer.printNode 0 .root n)

end ComponentDoc.Yaml
