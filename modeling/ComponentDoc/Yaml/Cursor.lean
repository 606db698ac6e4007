import ComponentDoc.Text.Character
import ComponentDoc.Yaml.Letter

set_option autoImplicit false

namespace ComponentDoc.Yaml

structure Cursor where
  rest : List Char
  index : Nat := 0
  line : Nat := 0
  column : Nat := 0
  deriving Inhabited

namespace Cursor

def peek (c : Cursor) : Option Char := c.rest.head?

def peekAt (c : Cursor) (n : Nat) : Option Char := c.rest[n]?

def sees (c : Cursor) (x : Char) : Bool := c.peek == some x

def advance (n : Nat) (c : Cursor) : Cursor :=
  { c with
    rest := c.rest.drop n
    index := c.index + Text.octetCount (c.rest.take n)
    column := c.column + n }

def skipWhile (p : Char → Bool) (c : Cursor) : Cursor := c.advance (c.rest.takeWhile p).length

def takeWhile (p : Char → Bool) (c : Cursor) : List Char × Cursor :=
  (c.rest.takeWhile p, c.skipWhile p)

def skipBlanks (c : Cursor) : Cursor := c.skipWhile isBlank

def skipToBreak (c : Cursor) : Cursor := c.skipWhile (!isBreak ·)

def takeBreak (c : Cursor) : List Char × Cursor :=
  match c.rest with
  | '\r' :: '\n' :: r => (['\n'], { rest := r, index := c.index + 2, line := c.line + 1 })
  | x :: r =>
    if isBreak x then
      (if x = '\u2028' ∨ x = '\u2029' then [x] else ['\n'],
        { rest := r, index := c.index + x.utf8Size, line := c.line + 1 })
    else ([], c)
  | [] => ([], c)

def skipBreak (c : Cursor) : Cursor := c.takeBreak.2

def seesBreak (c : Cursor) : Bool := (c.peek.map isBreak).getD false

def afterLine (c : Cursor) : Cursor := { c with line := c.line + 1, column := 0 }

def seesMark (x : Char) (c : Cursor) : Bool :=
  c.column == 0 && c.sees x && c.peekAt 1 == some x && c.peekAt 2 == some x && isGap (c.peekAt 3)

def seesDocumentMark (c : Cursor) : Bool := c.seesMark '-' || c.seesMark '.'

def skipComment (c : Cursor) : Cursor := if c.sees '#' then c.skipToBreak else c

end Cursor

/-- The blanks and line breaks between two parts of a scalar. -/
structure Gap where
  blanks : List Char := []
  first : Option (List Char) := none
  more : List Char := []

namespace Gap

def text (g : Gap) : List Char :=
  match g.first with
  | none => g.blanks
  | some b => if b = ['\n'] then (if g.more.isEmpty then [' '] else g.more) else b ++ g.more

def isBroken (g : Gap) : Bool := g.first.isSome

/-- Reads a gap to its end. A tab left of the given column is refused on further lines. -/
def read (margin : Int) : Nat → Gap → Cursor → Option (Gap × Cursor)
  | 0, g, c => some (g, c)
  | fuel + 1, g, c =>
    match c.peek with
    | none => some (g, c)
    | some x =>
      if isBlank x then
        if !g.isBroken then read margin fuel { g with blanks := g.blanks ++ [x] } (c.advance 1)
        else if x = '\t' ∧ (c.column : Int) < margin then none
        else read margin fuel g (c.advance 1)
      else if isBreak x then
        let (b, c) := c.takeBreak
        if g.isBroken then read margin fuel { g with more := g.more ++ b } c
        else read margin fuel { first := some b } c
      else some (g, c)

end Gap

end ComponentDoc.Yaml
