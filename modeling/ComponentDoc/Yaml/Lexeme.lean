import ComponentDoc.Yaml.Cursor
import ComponentDoc.Yaml.Node

set_option autoImplicit false

namespace ComponentDoc.Yaml.Lexeme
open ComponentDoc.Decimal

def endsAnchor (x : Option Char) : Bool :=
  isGap x || (x.map "?:,]\x7d%@`".toList.contains).getD false

def anchorName (c : Cursor) : Option (List Char × Cursor) :=
  let (name, c) := (c.advance 1).takeWhile isWordChar
  if name.isEmpty || !endsAnchor c.peek then none else some (name, c)

def tagHandle (directive : Bool) (c : Cursor) : Option (List Char × Cursor) :=
  if !c.sees '!' then none
  else
    let (word, c) := (c.advance 1).takeWhile isWordChar
    if c.sees '!' then some ('!' :: (word ++ ['!']), c.advance 1)
    else if directive && !word.isEmpty then none
    else some ('!' :: word, c)

def isTagChar (full : Bool) (x : Char) : Bool :=
  isWordChar x || ";/?:@&=+$.%!~*'()".toList.contains x || full && ",[]".toList.contains x

def escapedOctet (c : Cursor) : Option (Nat × Cursor) :=
  match c.rest with
  | '%' :: a :: b :: _ => do
    let n ← readDigits 16 [a, b]
    return (n, c.advance 3)
  | _ => none

def octetCount (n : Nat) : Option Nat :=
  if n < 0x80 then some 1
  else if n / 0x20 = 6 then some 2
  else if n / 0x10 = 14 then some 3
  else if n / 0x08 = 30 then some 4
  else none

def trailingOctets : Nat → Cursor → Option (Octets × Cursor)
  | 0, c => some ([], c)
  | k + 1, c => do
    let (n, c) ← escapedOctet c
    if n / 0x40 = 2 then
      let (bs, c) ← trailingOctets k c
      return (UInt8.ofNat n :: bs, c)
    else none

def escapedChar (c : Cursor) : Option (Octets × Cursor) := do
  let (n, c) ← escapedOctet c
  let count ← octetCount n
  let (bs, c) ← trailingOctets (count - 1) c
  return (UInt8.ofNat n :: bs, c)

def tagChars (full : Bool) : Nat → Octets → Cursor → Option (Octets × Cursor)
  | 0, bs, c => some (bs, c)
  | fuel + 1, bs, c =>
    match c.peek with
    | none => some (bs, c)
    | some x =>
      if x = '%' then
        match escapedChar c with
        | some (es, c) => tagChars full fuel (bs ++ es) c
        | none => none
      else if isTagChar full x then
        tagChars full fuel (bs ++ [UInt8.ofNat x.toNat]) (c.advance 1)
      else some (bs, c)

def asciiOctets (cs : List Char) : Octets := cs.map (fun x => UInt8.ofNat x.toNat)

/-- The text of a tag after what its handle has already taken, as far as it counts. It has no
characters only if the handle has. -/
def tagText (full : Bool) (taken : List Char) (c : Cursor) : Option (Octets × Cursor) := do
  let (bs, c') ← tagChars full c.rest.length (asciiOctets (taken.drop 1)) c
  if taken.isEmpty && bs.isEmpty then none else return (bs.untilZero, c')

def isFullHandle (handle : List Char) : Bool :=
  handle.length ≥ 2 && handle.head? == some '!' && handle.getLast? == some '!'

def tag (inFlow : Bool) (c : Cursor) : Option (TagToken × Cursor) := do
  let (t, c) ←
    if c.peekAt 1 = some '<' then do
      let (bs, c) ← tagText true [] (c.advance 2)
      if c.sees '>' then some ({ handle := [], suffix := bs : TagToken }, c.advance 1) else none
    else do
      let (handle, c) ← tagHandle false c
      if isFullHandle handle then
        let (bs, c) ← tagText false [] c
        some ({ handle, suffix := bs : TagToken }, c)
      else
        let (bs, c) ← tagText false handle c
        if bs.isEmpty then some ({ handle := [], suffix := [Octets.bang] : TagToken }, c)
        else some ({ handle := ['!'], suffix := bs : TagToken }, c)
  if inFlow && c.sees ',' || isGap c.peek then return (t, c) else none

def versionNumber (c : Cursor) : Option (Nat × Cursor) := do
  let (ds, c) := c.takeWhile isDigit
  if ds.length > 9 then none
  else
    let n ← readDigits 10 ds
    return (n, c)

def versionDirective (c : Cursor) : Option (Token × Cursor) := do
  let (major, c) ← versionNumber c.skipBlanks
  if !c.sees '.' then none
  else
    let (minor, c) ← versionNumber (c.advance 1)
    return (.version major minor, c)

def tagDirective (c : Cursor) : Option (Token × Cursor) := do
  let (handle, c) ← tagHandle true c.skipBlanks
  if !(c.peek.map isBlank).getD false then none
  else
    let (start, c) ← tagText true [] c.skipBlanks
    if isGap c.peek then return (.tagHandle handle start, c) else none

def directive (c : Cursor) : Option (Token × Cursor) := do
  let (name, c) := (c.advance 1).takeWhile isWordChar
  if name.isEmpty || !isGap c.peek then none
  else
    let (t, c) ←
      if name = "YAML".toList then versionDirective c
      else if name = "TAG".toList then tagDirective c
      else none
    let c := c.skipBlanks.skipComment
    if isLineEnd c.peek then return (t, c.skipBreak) else none

def endsPlain (inFlow : Bool) (x : Char) (next : Option Char) : Bool :=
  x == ':' && isGap next || inFlow && ",[]\x7b\x7d".toList.contains x

/-- Whether a colon is followed by a mark that it must not touch. -/
def clashes (inFlow : Bool) (x : Char) (next : Option Char) : Bool :=
  inFlow && x == ':' && (next.map ",?[]\x7b\x7d".toList.contains).getD false

def plainWord (inFlow : Bool) : List Char → Option (List Char)
  | [] => some []
  | x :: cs =>
    if isGap (some x) then some []
    else if clashes inFlow x cs.head? then none
    else if endsPlain inFlow x cs.head? then some []
    else (plainWord inFlow cs).map (x :: ·)

structure PlainText where
  text : List Char
  broken : Bool

def plainWords (inFlow : Bool) (margin : Int) :
    Nat → List Char → Gap → Cursor → Option (PlainText × Cursor)
  | 0, text, gap, c => some (⟨text, gap.isBroken⟩, c)
  | fuel + 1, text, gap, c =>
    if c.seesDocumentMark || c.sees '#' then some (⟨text, gap.isBroken⟩, c)
    else do
      let word ← plainWord inFlow c.rest
      let text := if word.isEmpty then text else text ++ gap.text ++ word
      let gap := if word.isEmpty then gap else {}
      let c := c.advance word.length
      if c.peek.isNone || !isGap c.peek then return (⟨text, gap.isBroken⟩, c)
      else
        let (gap, c) ← Gap.read margin c.rest.length gap c
        if !inFlow && (c.column : Int) < margin then return (⟨text, gap.isBroken⟩, c)
        else plainWords inFlow margin fuel text gap c

def plain (inFlow : Bool) (margin : Int) (c : Cursor) : Option (PlainText × Cursor) :=
  plainWords inFlow margin (c.rest.length + 1) [] {} c

def escapeLetter (x : Char) : Option Char :=
  match x with
  | '0' => some '\x00'
  | 'a' => some '\x07'
  | 'b' => some '\x08'
  | 't' => some '\t'
  | '\t' => some '\t'
  | 'n' => some '\n'
  | 'v' => some '\x0b'
  | 'f' => some '\x0c'
  | 'r' => some '\r'
  | 'e' => some '\x1b'
  | ' ' => some ' '
  | '"' => some '"'
  | '/' => some '/'
  | '\\' => some '\\'
  | 'N' => some '\x85'
  | '_' => some '\u00a0'
  | 'L' => some '\u2028'
  | 'P' => some '\u2029'
  | _ => none

def escapeWidth (x : Char) : Option Nat :=
  match x with
  | 'x' => some 2
  | 'u' => some 4
  | 'U' => some 8
  | _ => none

def escaped (c : Cursor) : Option (Char × Cursor) := do
  let x ← c.peekAt 1
  match escapeLetter x, escapeWidth x with
  | some y, _ => return (y, c.advance 2)
  | none, some w =>
    let ds := (c.rest.drop 2).take w
    let n ← if ds.length = w then readDigits 16 ds else none
    if n.isValidChar then return (Char.ofNat n, c.advance (2 + w)) else none
  | none, none => none

def quotedWord (quote : Char) : Nat → List Char → Cursor → Option (List Char × Bool × Cursor)
  | 0, text, c => some (text, false, c)
  | fuel + 1, text, c =>
    match c.peek with
    | none => some (text, false, c)
    | some x =>
      if isGap (some x) then some (text, false, c)
      else if quote = '\'' ∧ x = quote ∧ c.peekAt 1 = some quote then
        quotedWord quote fuel (text ++ [quote]) (c.advance 2)
      else if x = quote then some (text, false, c)
      else if quote = '"' ∧ x = '\\' then
        if ((c.peekAt 1).map isBreak).getD false then some (text, true, (c.advance 1).skipBreak)
        else match escaped c with
          | some (y, c) => quotedWord quote fuel (text ++ [y]) c
          | none => none
      else quotedWord quote fuel (text ++ [x]) (c.advance 1)

def quotedParts (quote : Char) : Nat → List Char → Cursor → Option (List Char × Cursor)
  | 0, _, _ => none
  | fuel + 1, text, c =>
    if c.seesDocumentMark || c.peek.isNone then none
    else do
      let (text, joined, c) ← quotedWord quote c.rest.length text c
      if c.sees quote then return (text, c.advance 1)
      else
        let gap : Gap := if joined then { first := some [] } else {}
        let (gap, c) ← Gap.read 0 c.rest.length gap c
        quotedParts quote fuel (text ++ gap.text) c

def quoted (c : Cursor) : Option (List Char × Cursor) := do
  let quote ← c.peek
  let c := c.advance 1
  quotedParts quote (c.rest.length + 1) [] c

inductive Chomp where
  | strip
  | clip
  | keep
  deriving DecidableEq

def chompMark : Option Char → Option Chomp
  | some '+' => some .keep
  | some '-' => some .strip
  | _ => none

def indentDigit (c : Cursor) : Option (Option Nat × Cursor) :=
  match c.peek with
  | some x =>
    if x = '0' then none
    else if isDigit x then some (some (x.toNat - '0'.toNat), c.advance 1)
    else some (none, c)
  | none => some (none, c)

def blockHeader (c : Cursor) : Option (Chomp × Option Nat × Cursor) :=
  match chompMark c.peek with
  | some m => do
    let (digit, c) ← indentDigit (c.advance 1)
    return (m, digit, c)
  | none => do
    let (digit, c) ← indentDigit c
    match digit, chompMark c.peek with
    | some d, some m => return (m, some d, c.advance 1)
    | _, _ => return (.clip, digit, c)

/-- The empty lines before a line of a block scalar, and the greatest column seen on them. Without a
known indentation every space belongs to them. -/
def blockBreaks (indent : Option Nat) :
    Nat → List Char → Nat → Cursor → Option (List Char × Nat × Cursor)
  | 0, breaks, widest, c => some (breaks, widest, c)
  | fuel + 1, breaks, widest, c =>
    let run := (c.rest.takeWhile (· == ' ')).length
    let c := c.advance (match indent with
      | some i => min run (i - c.column)
      | none => run)
    let widest := max widest c.column
    let outside := match indent with
      | some i => decide (c.column < i)
      | none => true
    if outside && c.sees '\t' then none
    else if c.seesBreak then
      let (b, c) := c.takeBreak
      blockBreaks indent fuel (breaks ++ b) widest c
    else some (breaks, widest, c)

/-- A line break before a line: folded into a space where neither line is indented further. -/
def joinLines (folded : Bool) (lastBreak breaks : List Char) (before here : Bool) : List Char :=
  if folded && lastBreak == ['\n'] && !before && !here then
    (if breaks.isEmpty then [' '] else []) ++ breaks
  else lastBreak ++ breaks

def blockLines (folded : Bool) (chomp : Chomp) (indent : Nat) :
    Nat → List Char → List Char → List Char → Bool → Cursor → Option (List Char × Cursor)
  | 0, _, _, _, _, _ => none
  | fuel + 1, text, lastBreak, breaks, before, c =>
    if c.column = indent ∧ c.peek.isSome then do
      let here := (c.peek.map isBlank).getD false
      let (line, c) := c.takeWhile (!isBreak ·)
      let text := text ++ joinLines folded lastBreak breaks before here ++ line
      let (lastBreak, c) := c.takeBreak
      let (breaks, _, c) ← blockBreaks (some indent) (c.rest.length + 1) [] 0 c
      blockLines folded chomp indent fuel text lastBreak breaks here c
    else
      return (text ++ (if chomp = .strip then [] else lastBreak) ++
        (if chomp = .keep then breaks else []), c)

def block (folded : Bool) (parent : Int) (c : Cursor) : Option (List Char × Cursor) := do
  let (chomp, digit, c) ← blockHeader (c.advance 1)
  let c := c.skipBlanks.skipComment
  if !isLineEnd c.peek then none
  else
    let c := c.skipBreak
    let fixed := digit.map (fun d => if parent ≥ 0 then parent.toNat + d else d)
    let (breaks, widest, c) ← blockBreaks fixed (c.rest.length + 1) [] 0 c
    let indent := fixed.getD (max widest (max (parent + 1) 1).toNat)
    blockLines folded chomp indent (c.rest.length + 1) [] [] breaks false c

end ComponentDoc.Yaml.Lexeme
