import ComponentDoc.Toml.Number
import ComponentDoc.Toml.Table

set_option autoImplicit false

namespace ComponentDoc.Toml

def plainValue (cs : List Char) : Option (Item × List Char) :=
  match cs with
  | 't' :: 'r' :: 'u' :: 'e' :: r => some (.bool true, r)
  | 'f' :: 'a' :: 'l' :: 's' :: 'e' :: r => some (.bool false, r)
  | cs => ((dateTime cs).or ((float cs).or (integer cs))).map (fun r => (.other, r))

def inlineEntries : Entries → List (List String × Item) → Option Entries
  | es, [] => some es
  | es, (path, item) :: pairs =>
    match path.getLast? with
    | none => none
    | some key => do
      let es ← es.add false false path.dropLast key item
      inlineEntries es pairs

mutual

def value : Nat → Nat → List Char → Option (Item × List Char)
  | 0, _, _ => none
  | fuel + 1, depth, cs =>
    match cs with
    | '"' :: _ => (string cs).map (fun (s, r) => (.string s, r))
    | '\'' :: _ => (string cs).map (fun (s, r) => (.string s, r))
    | '[' :: r =>
      match depth with
      | 0 => none
      | d + 1 => do
        let r ← arrayItems fuel d (skipLines r.length r)
        return (.other, r)
    | '\x7b' :: r =>
      match depth with
      | 0 => none
      | d + 1 => do
        let (pairs, r) ← inlinePairs fuel d (skipSpaces r)
        let _ ← inlineEntries [] pairs
        return (.other, r)
    | cs => plainValue cs

def arrayItems : Nat → Nat → List Char → Option (List Char)
  | 0, _, _ => none
  | fuel + 1, depth, cs =>
    match cs with
    | ']' :: r => some r
    | cs => do
      let (_, r) ← value fuel depth cs
      match skipLines r.length r with
      | ',' :: r => arrayItems fuel depth (skipLines r.length r)
      | ']' :: r => some r
      | _ => none

def inlinePairs : Nat → Nat → List Char → Option (List (List String × Item) × List Char)
  | 0, _, _ => none
  | fuel + 1, depth, cs =>
    match cs with
    | '\x7d' :: r => some ([], r)
    | cs => inlinePair fuel depth cs

def inlinePair : Nat → Nat → List Char → Option (List (List String × Item) × List Char)
  | 0, _, _ => none
  | fuel + 1, depth, cs => do
    let (path, r) ← key cs
    let (item, r) ← value fuel depth (skipSpaces (← expect '=' r))
    match skipSpaces r with
    | ',' :: r => do
      let (pairs, r) ← inlinePair fuel depth r
      return ((path, item) :: pairs, r)
    | '\x7d' :: r => return ([(path, item)], r)
    | _ => none

end

/-- A document as far as it is read: its root table, and the path of the table that keys go to. -/
structure Reading where
  root : Entries := []
  header : List String := []

def header (s : Reading) (cs : List Char) : Option (Reading × List Char) :=
  let opened (act : String → Bool → Entries → Option Entries) (path : List String) :
      Option Reading := do
    let last ← path.getLast?
    let root ← s.root.within (act last) false path.dropLast
    return ⟨root, path⟩
  match cs with
  | '[' :: '[' :: r => do
    let (path, r) ← key r
    let s ← opened Entries.openTables path
    return (s, ← expect ']' (← expect ']' r))
  | '[' :: r => do
    let (path, r) ← key r
    let s ← opened Entries.openTable path
    return (s, ← expect ']' r)
  | _ => none

def pair (s : Reading) (cs : List Char) : Option (Reading × List Char) := do
  let (path, r) ← key cs
  let (item, r) ← value (2 * r.length + 2) (maxDepth - 1) (skipSpaces (← expect '=' r))
  let last ← path.getLast?
  let root ← s.root.within (fun dotted es => es.add false dotted path.dropLast last item) false s.header
  return (⟨root, s.header⟩, r)

def lines : Nat → Reading → List Char → Option Reading
  | 0, _, _ => none
  | fuel + 1, s, cs => do
    let cs := skipSpaces cs
    let (s, r) ←
      match cs with
      | '[' :: _ => header s cs
      | '#' :: _ => some (s, cs)
      | '\n' :: _ => some (s, cs)
      | '\r' :: _ => some (s, cs)
      | [] => some (s, [])
      | cs => pair s cs
    match skipComment (skipSpaces r) with
    | [] => return s
    | r => do
      let r ← newline r
      lines fuel s r

def parse (text : String) : Option Entries :=
  let cs := match text.toList with
    | '\ufeff' :: cs => cs
    | cs => cs
  (lines (cs.length + 1) {} cs).map Reading.root

end ComponentDoc.Toml
