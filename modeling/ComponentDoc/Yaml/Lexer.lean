import ComponentDoc.Yaml.Lexeme

/-!
The token stream of a document. A key that stands before a colon is known only at the colon: every
place where one may have begun is remembered until its line or its length rules it out, and the key's
mark is put in front of it afterwards. A text that breaks off gives the tokens that are settled by
then, those before the first place where a key might still begin.
-/

set_option autoImplicit false

namespace ComponentDoc.Yaml

/-- A place where a key may have begun: the number of its first token, and whether the block that it
stands in asks for a key there. -/
structure KeyStart where
  token : Nat
  required : Bool
  index : Nat
  line : Nat
  column : Nat

/-- The state between two tokens. Tokens are held last first; of the possible keys, one for each flow
collection and one for the block around them, the innermost comes first. -/
structure Lexer where
  cursor : Cursor
  tokens : List Token := []
  count : Nat := 0
  indent : Int := -1
  outer : List Int := []
  keys : List (Option KeyStart) := [none]
  keyAllowed : Bool := true

namespace Lexer

def inFlow (s : Lexer) : Bool := s.keys.length > 1

def push (t : Token) (s : Lexer) : Lexer := { s with tokens := t :: s.tokens, count := s.count + 1 }

def pushAt (n : Nat) (t : Token) (s : Lexer) : Lexer :=
  let later := s.count - n
  { s with tokens := s.tokens.take later ++ t :: s.tokens.drop later, count := s.count + 1 }

def moveTo (c : Cursor) (s : Lexer) : Lexer := { s with cursor := c }

def allowKey (b : Bool) (s : Lexer) : Lexer := { s with keyAllowed := b }

/-- A key can no longer have begun there once its line is over or it takes up too many octets. -/
def isStale (c : Cursor) (k : KeyStart) : Bool :=
  decide (k.line < c.line ∨ k.index + 1024 < c.index)

def dropStale (s : Lexer) : Option Lexer :=
  if s.keys.any (fun k => (k.map (fun k => isStale s.cursor k && k.required)).getD false) then none
  else some { s with keys := s.keys.map (·.filter (!isStale s.cursor ·)) }

def dropKey (s : Lexer) : Option Lexer :=
  match s.keys with
  | some k :: ks => if k.required then none else some { s with keys := none :: ks }
  | _ => some s

def saveKey (s : Lexer) : Option Lexer :=
  if !s.keyAllowed then some s
  else do
    let s ← s.dropKey
    let k : KeyStart := {
      token := s.count
      required := !s.inFlow && s.indent == s.cursor.column
      index := s.cursor.index
      line := s.cursor.line
      column := s.cursor.column }
    return { s with keys := some k :: s.keys.drop 1 }

def rollIndent (column : Int) (n : Nat) (t : Token) (s : Lexer) : Lexer :=
  if !s.inFlow && s.indent < column then
    { s.pushAt n t with outer := s.indent :: s.outer, indent := column }
  else s

def closeBlocks (column : Int) : List Int → Lexer → Lexer
  | [], s => s
  | i :: is, s =>
    if column < s.indent then closeBlocks column is { s.push .blockEnd with indent := i, outer := is }
    else s

def unrollIndent (column : Int) (s : Lexer) : Lexer :=
  if s.inFlow then s else closeBlocks column s.outer s

/-- Over blanks, comments and line breaks to the next token. A byte order mark may stand first on a
line and takes up a column. In block context a tab must not stand where a key may begin, and a new
line may begin a key. -/
def skipToToken : Nat → Lexer → Lexer
  | 0, s => s
  | fuel + 1, s =>
    let c := s.cursor
    let c := if c.column = 0 ∧ c.sees byteOrderMark then c.advance 1 else c
    let c := c.skipWhile (fun x => x == ' ' || (s.inFlow || !s.keyAllowed) && x == '\t')
    let c := c.skipComment
    if c.seesBreak then
      skipToToken fuel { s with cursor := c.skipBreak, keyAllowed := s.keyAllowed || !s.inFlow }
    else s.moveTo c

def fetchDirective (s : Lexer) : Option Lexer := do
  let s ← (s.unrollIndent (-1)).dropKey
  let (t, c) ← Lexeme.directive s.cursor
  return ((s.allowKey false).moveTo c).push t

def fetchDocumentMark (t : Token) (s : Lexer) : Option Lexer := do
  let s ← (s.unrollIndent (-1)).dropKey
  return ((s.allowKey false).moveTo (s.cursor.advance 3)).push t

def fetchFlowStart (t : Token) (s : Lexer) : Option Lexer := do
  let s ← s.saveKey
  return (({ s with keys := none :: s.keys }.allowKey true).moveTo (s.cursor.advance 1)).push t

def fetchFlowEnd (t : Token) (s : Lexer) : Option Lexer := do
  let s ← s.dropKey
  let s := if s.inFlow then { s with keys := s.keys.drop 1 } else s
  return ((s.allowKey false).moveTo (s.cursor.advance 1)).push t

def fetchFlowEntry (s : Lexer) : Option Lexer := do
  let s ← s.dropKey
  return ((s.allowKey true).moveTo (s.cursor.advance 1)).push .flowEntry

def fetchBlockEntry (s : Lexer) : Option Lexer :=
  if !s.inFlow && !s.keyAllowed then none
  else do
    let s ← (s.rollIndent s.cursor.column s.count .blockSequenceStart).dropKey
    return ((s.allowKey true).moveTo (s.cursor.advance 1)).push .blockEntry

def fetchKey (s : Lexer) : Option Lexer :=
  if !s.inFlow && !s.keyAllowed then none
  else do
    let s ← (s.rollIndent s.cursor.column s.count .blockMappingStart).dropKey
    return ((s.allowKey (!s.inFlow)).moveTo (s.cursor.advance 1)).push .key

def fetchValue (s : Lexer) : Option Lexer :=
  match s.keys with
  | some k :: ks =>
    let s := { s with keys := none :: ks }
    let s := (s.pushAt k.token .key).rollIndent k.column k.token .blockMappingStart
    some (((s.allowKey false).moveTo (s.cursor.advance 1)).push .value)
  | _ =>
    if !s.inFlow && !s.keyAllowed then none
    else
      let s := s.rollIndent s.cursor.column s.count .blockMappingStart
      some (((s.allowKey (!s.inFlow)).moveTo (s.cursor.advance 1)).push .value)

def fetchAlias (s : Lexer) : Option Lexer := do
  let s ← s.saveKey
  let (name, c) ← Lexeme.anchorName s.cursor
  return ((s.allowKey false).moveTo c).push (.alias name)

def fetchAnchor (s : Lexer) : Option Lexer := do
  let s ← s.saveKey
  let (name, c) ← Lexeme.anchorName s.cursor
  return ((s.allowKey false).moveTo c).push (.anchor name)

def fetchTag (s : Lexer) : Option Lexer := do
  let s ← s.saveKey
  let (t, c) ← Lexeme.tag s.inFlow s.cursor
  return ((s.allowKey false).moveTo c).push (.tag t)

def fetchBlockScalar (folded : Bool) (s : Lexer) : Option Lexer := do
  let s ← s.dropKey
  let (text, c) ← Lexeme.block folded s.indent s.cursor
  return ((s.allowKey true).moveTo c).push (.scalar (if folded then .folded else .literal) text)

def fetchQuoted (style : Style) (s : Lexer) : Option Lexer := do
  let s ← s.saveKey
  let (text, c) ← Lexeme.quoted s.cursor
  return ((s.allowKey false).moveTo c).push (.scalar style text)

def fetchPlain (s : Lexer) : Option Lexer := do
  let s ← s.saveKey
  let (plain, c) ← Lexeme.plain s.inFlow (s.indent + 1) s.cursor
  return ((s.allowKey plain.broken).moveTo c).push (.scalar .plain plain.text)

def startsPlain (inFlow : Bool) (x : Char) (next : Option Char) : Bool :=
  !isGap (some x) && !"-?:,[]\x7b\x7d#&*!|>'\"%@`".toList.contains x ||
  x == '-' && !(next.map isBlank).getD false ||
  !inFlow && (x == '?' || x == ':') && !isGap next

def dispatch (x : Char) (s : Lexer) : Option Lexer :=
  let c := s.cursor
  let next := c.peekAt 1
  if c.column = 0 ∧ x = '%' then s.fetchDirective
  else if c.seesMark '-' then s.fetchDocumentMark .documentStart
  else if c.seesMark '.' then s.fetchDocumentMark .documentEnd
  else if x = '[' then s.fetchFlowStart .flowSequenceStart
  else if x = '\x7b' then s.fetchFlowStart .flowMappingStart
  else if x = ']' then s.fetchFlowEnd .flowSequenceEnd
  else if x = '\x7d' then s.fetchFlowEnd .flowMappingEnd
  else if x = ',' then s.fetchFlowEntry
  else if x = '-' ∧ isGap next then s.fetchBlockEntry
  else if x = '?' ∧ (s.inFlow || isGap next) then s.fetchKey
  else if x = ':' ∧ (s.inFlow || isGap next) then s.fetchValue
  else if x = '*' then s.fetchAlias
  else if x = '&' then s.fetchAnchor
  else if x = '!' then s.fetchTag
  else if x = '|' ∧ !s.inFlow then s.fetchBlockScalar false
  else if x = '>' ∧ !s.inFlow then s.fetchBlockScalar true
  else if x = '\'' then s.fetchQuoted .single
  else if x = '"' then s.fetchQuoted .double
  else if startsPlain s.inFlow x next then s.fetchPlain
  else none

def fetchEnd (s : Lexer) : Option Lexer := do
  let s ← (s.unrollIndent (-1)).dropKey
  (((s.allowKey false).moveTo s.cursor.afterLine).push .streamEnd).dropStale

def step (s : Lexer) : Option (Bool × Lexer) := do
  let s ← (skipToToken (s.cursor.rest.length + 1) s).dropStale
  let s := s.unrollIndent s.cursor.column
  match s.cursor.peek with
  | none => do
    let s ← s.fetchEnd
    return (true, s)
  | some x => do
    let s ← s.dispatch x
    let s ← s.dropStale
    return (false, s)

/-- The tokens before every place where a key might still begin, in order. -/
def settled (s : Lexer) : List Token :=
  let limit := (s.keys.filterMap (·.map KeyStart.token)).foldl min s.count
  s.tokens.reverse.take limit

def run : Nat → Lexer → List Token
  | 0, s => s.settled
  | fuel + 1, s =>
    match s.step with
    | none => s.settled
    | some (true, s) => s.tokens.reverse
    | some (false, s) => run fuel s

end Lexer

def tokens (text : List Char) : List Token :=
  if text.all isAllowed then Lexer.run (text.length + 2) { cursor := { rest := text } } else []

end ComponentDoc.Yaml
