import ComponentDoc.Yaml.Lexer

set_option autoImplicit false

namespace ComponentDoc.Yaml

structure Reading where
  tokens : List Token
  anchors : List (List Char × Nat) := []
  handles : List (List Char × Octets) := []
  broken : Bool := false

namespace Reading

def next (s : Reading) : Option Token := s.tokens.head?

def skip (s : Reading) : Reading := { s with tokens := s.tokens.drop 1 }

def breakOff (s : Reading) : Node × Reading := (.cut, { s with broken := true })

def sees (s : Reading) (t : Token) : Bool := s.next == some t

def seesAny (s : Reading) (ts : List Token) : Bool := (s.next.map ts.contains).getD false

/-- Names an anchor. Its number is the count of names so far, so a name given again takes a number
that the next new name takes over. -/
def define (name : List Char) (s : Reading) : Nat × Reading :=
  let number := s.anchors.length
  if s.anchors.any (·.1 == name) then
    (number, { s with anchors := s.anchors.map (fun a => if a.1 = name then (name, number) else a) })
  else (number, { s with anchors := s.anchors ++ [(name, number)] })

def defaultHandles : List (List Char × Octets) :=
  [(['!'], [Octets.bang]), (['!', '!'], Octets.ofText "tag:yaml.org,2002:")]

def resolveTag (t : TagToken) (s : Reading) : Option Octets :=
  if t.handle.isEmpty then some t.suffix
  else ((s.handles ++ defaultHandles).lookup t.handle).map (· ++ t.suffix)

end Reading

open Reading

structure Marks where
  anchor : Option (List Char) := none
  tag : Option TagToken := none

def readMarks (s : Reading) : Marks × Reading :=
  match s.tokens with
  | .anchor a :: .tag t :: ts => (⟨some a, some t⟩, { s with tokens := ts })
  | .tag t :: .anchor a :: ts => (⟨some a, some t⟩, { s with tokens := ts })
  | .anchor a :: ts => (⟨some a, none⟩, { s with tokens := ts })
  | .tag t :: ts => (⟨none, some t⟩, { s with tokens := ts })
  | _ => ({}, s)

def beginNode (anchor : Option (List Char)) (tag : Option Octets) (s : Reading) :
    Properties × Reading :=
  match anchor with
  | some a => let (n, s) := s.define a; (⟨some n, tag⟩, s)
  | none => (⟨none, tag⟩, s)

def emptyNode : Node := .scalar {} .plain []

mutual

/-- One node. In block context it may be a block collection, and beneath a key a sequence at the
key's own column. -/
def readNode : Nat → Bool → Bool → Reading → Node × Reading
  | 0, _, _, s => s.breakOff
  | fuel + 1, block, indentless, s =>
    match s.next with
    | some (.alias name) =>
      match s.anchors.lookup name with
      | some n => (.alias n, s.skip)
      | none => s.breakOff
    | _ =>
      let (marks, s) := readMarks s
      match marks.tag.map (resolveTag · s) with
      | some none => s.breakOff
      | resolved =>
        let tag := resolved.join
        let begun := beginNode marks.anchor tag s
        match s.next with
        | none => s.breakOff
        | some .blockEntry =>
          if indentless then
            let (items, s) := readIndentlessItems fuel begun.2
            (.seq begun.1 items, s)
          else if marks.anchor.isSome || tag.isSome then (.scalar begun.1 .plain [], begun.2)
          else s.breakOff
        | some (.scalar style text) => (.scalar begun.1 style text, begun.2.skip)
        | some .flowSequenceStart =>
          let (items, s) := readFlowItems fuel true begun.2.skip
          (.seq begun.1 items, s)
        | some .flowMappingStart =>
          let (entries, s) := readFlowEntries fuel true begun.2.skip
          (.map begun.1 entries, s)
        | some .blockSequenceStart =>
          if block then
            let (items, s) := readBlockItems fuel begun.2.skip
            (.seq begun.1 items, s)
          else if marks.anchor.isSome || tag.isSome then (.scalar begun.1 .plain [], begun.2)
          else s.breakOff
        | some .blockMappingStart =>
          if block then
            let (entries, s) := readBlockEntries fuel begun.2.skip
            (.map begun.1 entries, s)
          else if marks.anchor.isSome || tag.isSome then (.scalar begun.1 .plain [], begun.2)
          else s.breakOff
        | some _ =>
          if marks.anchor.isSome || tag.isSome then (.scalar begun.1 .plain [], begun.2)
          else s.breakOff

def readOptional : Nat → Bool → Bool → List Token → Reading → Node × Reading
  | 0, _, _, _, s => s.breakOff
  | fuel + 1, block, indentless, stops, s =>
    if s.next.isNone then s.breakOff
    else if s.seesAny stops then (emptyNode, s)
    else readNode fuel block indentless s

def readBlockItems : Nat → Reading → List Node × Reading
  | 0, s => ([.cut], { s with broken := true })
  | fuel + 1, s =>
    match s.next with
    | some .blockEntry =>
      let (n, s) := readOptional fuel true false [.blockEntry, .blockEnd] s.skip
      if s.broken then ([n], s)
      else
        let (ns, s) := readBlockItems fuel s
        (n :: ns, s)
    | some .blockEnd => ([], s.skip)
    | _ => ([.cut], { s with broken := true })

def readIndentlessItems : Nat → Reading → List Node × Reading
  | 0, s => ([.cut], { s with broken := true })
  | fuel + 1, s =>
    match s.next with
    | some .blockEntry =>
      let (n, s) := readOptional fuel true false [.blockEntry, .key, .value, .blockEnd] s.skip
      if s.broken then ([n], s)
      else
        let (ns, s) := readIndentlessItems fuel s
        (n :: ns, s)
    | some _ => ([], s)
    | none => ([.cut], { s with broken := true })

def readBlockValue : Nat → Reading → Node × Reading
  | 0, s => s.breakOff
  | fuel + 1, s =>
    match s.next with
    | some .value => readOptional fuel true true [.key, .value, .blockEnd] s.skip
    | some _ => (emptyNode, s)
    | none => s.breakOff

def readBlockEntries : Nat → Reading → List (Node × Node) × Reading
  | 0, s => ([(.cut, .cut)], { s with broken := true })
  | fuel + 1, s =>
    match s.next with
    | some .key =>
      let (k, s) := readOptional fuel true true [.key, .value, .blockEnd] s.skip
      if s.broken then ([(k, .cut)], s)
      else
        let (v, s) := readBlockValue fuel s
        if s.broken then ([(k, v)], s)
        else
          let (es, s) := readBlockEntries fuel s
          ((k, v) :: es, s)
    | some .blockEnd => ([], s.skip)
    | _ => ([(.cut, .cut)], { s with broken := true })

def readPairValue : Nat → Reading → Node × Reading
  | 0, s => s.breakOff
  | fuel + 1, s =>
    match s.next with
    | some .value => readOptional fuel false false [.flowEntry, .flowSequenceEnd] s.skip
    | some _ => (emptyNode, s)
    | none => s.breakOff

/-- A pair in a flow sequence, after the mark of its key. A missing key takes the token that shows
it to be missing along. -/
def readPair : Nat → Reading → Node × Reading
  | 0, s => s.breakOff
  | fuel + 1, s =>
    let (k, s) :=
      if s.seesAny [.value, .flowEntry, .flowSequenceEnd] then (emptyNode, s.skip)
      else if s.next.isNone then s.breakOff
      else readNode fuel false false s
    if s.broken then (.map {} [(k, .cut)], s)
    else
      let (v, s) := readPairValue fuel s
      (.map {} [(k, v)], s)

def readFlowItem : Nat → Reading → List Node × Reading
  | 0, s => ([.cut], { s with broken := true })
  | fuel + 1, s =>
    match s.next with
    | none => ([.cut], { s with broken := true })
    | some .flowSequenceEnd => ([], s.skip)
    | some t =>
      let (n, s) := if t = .key then readPair fuel s.skip else readNode fuel false false s
      if s.broken then ([n], s)
      else
        let (ns, s) := readFlowItems fuel false s
        (n :: ns, s)

def readFlowItems : Nat → Bool → Reading → List Node × Reading
  | 0, _, s => ([.cut], { s with broken := true })
  | fuel + 1, first, s =>
    if first || s.sees .flowSequenceEnd then readFlowItem fuel s
    else if s.sees .flowEntry then readFlowItem fuel s.skip
    else ([.cut], { s with broken := true })

def readFlowValue : Nat → Reading → Node × Reading
  | 0, s => s.breakOff
  | fuel + 1, s =>
    match s.next with
    | some .value => readOptional fuel false false [.flowEntry, .flowMappingEnd] s.skip
    | some _ => (emptyNode, s)
    | none => s.breakOff

def readFlowEntry : Nat → Reading → List (Node × Node) × Reading
  | 0, s => ([(.cut, .cut)], { s with broken := true })
  | fuel + 1, s =>
    match s.next with
    | none => ([(.cut, .cut)], { s with broken := true })
    | some .flowMappingEnd => ([], s.skip)
    | some t =>
      let (k, s) :=
        if t = .key then readOptional fuel false false [.value, .flowEntry, .flowMappingEnd] s.skip
        else readNode fuel false false s
      if s.broken then ([(k, .cut)], s)
      else
        let (v, s) := if t = .key then readFlowValue fuel s
          else if s.next.isNone then s.breakOff else (emptyNode, s)
        if s.broken then ([(k, v)], s)
        else
          let (es, s) := readFlowEntries fuel false s
          ((k, v) :: es, s)

def readFlowEntries : Nat → Bool → Reading → List (Node × Node) × Reading
  | 0, _, s => ([(.cut, .cut)], { s with broken := true })
  | fuel + 1, first, s =>
    if first || s.sees .flowMappingEnd then readFlowEntry fuel s
    else if s.sees .flowEntry then readFlowEntry fuel s.skip
    else ([(.cut, .cut)], { s with broken := true })

end

def readDirectives : List Token → Bool → List (List Char × Octets) →
    Option (List Token × List (List Char × Octets))
  | .version major minor :: ts, versioned, handles =>
    if versioned || major != 1 || minor != 1 && minor != 2 then none
    else readDirectives ts true handles
  | .tagHandle handle start :: ts, versioned, handles =>
    if handles.any (·.1 == handle) then none
    else readDirectives ts versioned (handles ++ [(handle, start)])
  | ts, _, handles => some (ts, handles)

/-- A text as a document: the tree of its first document, or nothing but emptiness, and whether
the text goes on or goes wrong after it. -/
structure Document where
  root : Option Node
  ended : Bool

def endsStream : List Token → Bool
  | [.streamEnd] => true
  | .documentEnd :: ts => endsStream ts
  | _ => false

def readRoot (ts : List Token) (handles : List (List Char × Octets)) (explicit : Bool) : Document :=
  let s : Reading := { tokens := ts, handles }
  let fuel := 4 * ts.length + 8
  let (n, s) :=
    match s.next with
    | none => s.breakOff
    | some t =>
      let bare := match t with
        | .version _ _ | .tagHandle _ _ | .documentStart | .documentEnd | .streamEnd => true
        | _ => false
      if explicit && bare then (emptyNode, s) else readNode fuel true false s
  ⟨some n, !s.broken && endsStream s.tokens⟩

def Document.read (text : List Char) : Document :=
  match tokens text with
  | [.streamEnd] => ⟨none, true⟩
  | ts =>
    match ts.head? with
    | some (.version _ _) | some (.tagHandle _ _) | some .documentStart =>
      match readDirectives ts false [] with
      | some (.documentStart :: ts, handles) => readRoot ts handles true
      | _ => ⟨some .cut, false⟩
    | some _ => readRoot ts [] false
    | none => ⟨some .cut, false⟩

end ComponentDoc.Yaml
