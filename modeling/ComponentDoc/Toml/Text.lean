import ComponentDoc.Decimal.Digits

set_option autoImplicit false

namespace ComponentDoc.Toml
open ComponentDoc.Decimal

abbrev Parser (α : Type) := List Char → Option (α × List Char)

def isSpace (c : Char) : Bool := c == ' ' || c == '\t'

def skipSpaces (cs : List Char) : List Char := cs.dropWhile isSpace

def newline : List Char → Option (List Char)
  | '\n' :: cs => some cs
  | '\r' :: '\n' :: cs => some cs
  | _ => none

def isTextChar (c : Char) : Bool := c == '\t' || decide (0x20 ≤ c.toNat ∧ c.toNat ≠ 0x7F)

def skipComment : List Char → List Char
  | '#' :: cs => cs.dropWhile isTextChar
  | cs => cs

def skipLines : Nat → List Char → List Char
  | 0, cs => cs
  | fuel + 1, cs =>
    match newline (skipComment (skipSpaces cs)) with
    | some r => skipLines fuel r
    | none => skipComment (skipSpaces cs)

def skipBlankLines : Nat → List Char → List Char
  | 0, cs => cs
  | fuel + 1, cs =>
    match newline (skipSpaces cs) with
    | some r => skipBlankLines fuel r
    | none => skipSpaces cs

def codePoint (width : Nat) : Parser Char := fun cs => do
  let ds := cs.take width
  let n ← if ds.length = width then readDigits 16 ds else none
  if n.isValidChar then return (Char.ofNat n, cs.drop width) else none

def escape : Parser Char
  | 'b' :: cs => some ('\x08', cs)
  | 't' :: cs => some ('\t', cs)
  | 'n' :: cs => some ('\n', cs)
  | 'f' :: cs => some ('\x0c', cs)
  | 'r' :: cs => some ('\r', cs)
  | '"' :: cs => some ('"', cs)
  | '\\' :: cs => some ('\\', cs)
  | 'u' :: cs => codePoint 4 cs
  | 'U' :: cs => codePoint 8 cs
  | _ => none

def basicBody : Nat → List Char → Parser (List Char)
  | 0, _, _ => none
  | fuel + 1, text, cs =>
    match cs with
    | '"' :: r => some (text, r)
    | '\\' :: r => do
      let (c, r) ← escape r
      basicBody fuel (text ++ [c]) r
    | c :: r => if isTextChar c then basicBody fuel (text ++ [c]) r else none
    | [] => none

def literalBody (cs : List Char) : Option (List Char × List Char) :=
  let text := cs.takeWhile (fun c => isTextChar c && c != '\'')
  match cs.drop text.length with
  | '\'' :: r => some (text, r)
  | _ => none

/-- The quotes at the end of a string over lines: three close it, and up to two more belong to it. -/
def closing (quote : Char) (cs : List Char) : Option (List Char × List Char) :=
  let run := (cs.takeWhile (· == quote)).length
  if run < 3 then none else some (List.replicate (min (run - 3) 2) quote, cs.drop (min run 5))

/-- A string over lines, after its opening quotes. A backslash at the end of a line takes away the
blanks and line breaks that follow. -/
def linesBody (quote : Char) : Nat → List Char → Parser (List Char)
  | 0, _, _ => none
  | fuel + 1, text, cs =>
    match closing quote cs with
    | some (quotes, r) => some (text ++ quotes, r)
    | none =>
      match newline cs with
      | some r => linesBody quote fuel (text ++ ['\n']) r
      | none =>
        match cs with
        | '\\' :: r =>
          if quote = '"' then
            match newline (skipSpaces r) with
            | some r => linesBody quote fuel text (skipBlankLines r.length r)
            | none => do
              let (c, r) ← escape r
              linesBody quote fuel (text ++ [c]) r
          else linesBody quote fuel (text ++ ['\\']) r
        | c :: r => if isTextChar c then linesBody quote fuel (text ++ [c]) r else none
        | [] => none

def linesString (quote : Char) (cs : List Char) : Option (List Char × List Char) :=
  let cs := (newline cs).getD cs
  linesBody quote (cs.length + 1) [] cs

def string (cs : List Char) : Option (String × List Char) :=
  let read := match cs with
    | '"' :: '"' :: '"' :: r => linesString '"' r
    | '\'' :: '\'' :: '\'' :: r => linesString '\'' r
    | '"' :: r => basicBody (r.length + 1) [] r
    | '\'' :: r => literalBody r
    | _ => none
  read.map (fun (text, r) => (String.ofList text, r))

def isBareChar (c : Char) : Bool := c.isAlphanum || c == '_' || c == '-'

def simpleKey (cs : List Char) : Option (String × List Char) :=
  match cs with
  | '"' :: r => (basicBody (r.length + 1) [] r).map (fun (text, r) => (String.ofList text, r))
  | '\'' :: r => (literalBody r).map (fun (text, r) => (String.ofList text, r))
  | cs =>
    let word := cs.takeWhile isBareChar
    if word.isEmpty then none else some (String.ofList word, cs.drop word.length)

def keyParts : Nat → List Char → Option (List String × List Char)
  | 0, _ => none
  | fuel + 1, cs => do
    let (part, r) ← simpleKey (skipSpaces cs)
    match skipSpaces r with
    | '.' :: r => do
      let (parts, r) ← keyParts fuel r
      return (part :: parts, r)
    | r => return ([part], r)

def maxDepth : Nat := 80

def key (cs : List Char) : Option (List String × List Char) := do
  let (parts, r) ← keyParts cs.length cs
  if parts.length < maxDepth then return (parts, r) else none

end ComponentDoc.Toml
