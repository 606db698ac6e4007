import ComponentDoc.Template.Element

set_option autoImplicit false

namespace ComponentDoc.Template

inductive Filter where
  | upper
  | size
  | append (suffix : Expr)

structure Output where
  start : Expr
  filters : List Filter

inductive Condition where
  | holds (e : Expr)
  | compares (c : Comparison) (left right : Expr)
  | both (a b : Condition)
  | either (a b : Condition)

inductive Node where
  | text (cs : List Char)
  | output (o : Output)
  | assign (name : String) (o : Output)
  | choose (c : Condition) (wanted : Bool) (yes no : List Node)
  | loop (name : String) (domain : Expr) (body otherwise : List Node)

def Filter.ofCall (f : FilterCall) : Option Filter :=
  match f.name, f.arguments with
  | "upcase", [] => some .upper
  | "size", [] => some .size
  | "append", [(none, e)] => some (.append e)
  | _, _ => none

def Output.ofChain (c : Chain) : Option Output := do
  let filters ← c.filters.mapM Filter.ofCall
  return ⟨c.start, filters⟩

def Word.source : Word → List Char
  | .chain _ s => s
  | .operator s => s.toList

def Word.value : Word → Option Expr
  | .chain ⟨e, []⟩ _ => some e
  | _ => none

def Word.name : Word → Option String
  | .chain ⟨.variable n [], []⟩ _ => some n
  | _ => none

def Word.reads (s : String) (w : Word) : Bool := w.source == s.toList

def comparisonOf (w : Word) : Option Comparison :=
  [("==", Comparison.equal), ("!=", .unequal), ("<>", .unequal), ("<", .less), (">", .greater),
    ("<=", .atMost), (">=", .atLeast), ("contains", .contains)].lookup (String.ofList w.source)

def comparison (ws : List Word) : Option (Condition × List Word) :=
  match ws with
  | [] => none
  | w :: r => do
    let left ← w.value
    match r with
    | [] => return (.holds left, [])
    | op :: r' =>
      match comparisonOf op, r' with
      | some c, v :: r => do
        let right ← v.value
        return (.compares c left right, r)
      | some _, [] => none
      | none, _ => return (.holds left, op :: r')

def conjunction : Nat → Condition → List Word → Option (Condition × List Word)
  | 0, c, ws => some (c, ws)
  | fuel + 1, c, ws =>
    match ws with
    | w :: r =>
      if w.reads "and" then do
        let (d, r) ← comparison r
        conjunction fuel (.both c d) r
      else some (c, w :: r)
    | [] => some (c, [])

def conjunctions (ws : List Word) : Option (Condition × List Word) := do
  let (c, r) ← comparison ws
  conjunction r.length c r

def disjunction : Nat → Condition → List Word → Option Condition
  | 0, c, ws => if ws.isEmpty then some c else none
  | fuel + 1, c, ws =>
    match ws with
    | [] => some c
    | w :: r =>
      if w.reads "or" then do
        let (d, r) ← conjunctions r
        disjunction fuel (.either c d) r
      else none

def condition (ws : List Word) : Option Condition := do
  let (c, r) ← conjunctions ws
  disjunction r.length c r

def assignment : List Word → Option (String × Output)
  | [n, eq, .chain c _] => do
    let name ← n.name
    if eq.reads "=" then
      let o ← Output.ofChain c
      return (name, o)
    else none
  | _ => none

def iteration : List Word → Option (String × Expr)
  | [n, isIn, v] => do
    let name ← n.name
    if isIn.reads "in" then
      let e ← v.value
      return (name, e)
    else none
  | _ => none

/-- The source of a raw block, and what follows its end tag. -/
def rawBlock : List Element → Option (List Char × List Element)
  | [] => none
  | e :: es =>
    let further := (rawBlock es).map (fun (s, r) => (e.source ++ s, r))
    match e with
    | .tag n ws _ => if n = "endraw" then (if ws.isEmpty then some ([], es) else none) else further
    | _ => further

/-- What follows the end tag of a comment. Comments inside it, whose number is given, take their own
end tags along. -/
def skipComment : Nat → List Element → Option (List Element)
  | _, [] => none
  | inner, .tag n ws _ :: es =>
    if n = "comment" then (if ws.isEmpty then skipComment (inner + 1) es else none)
    else if n = "endcomment" then
      if !ws.isEmpty then none
      else match inner with
        | 0 => some es
        | k + 1 => skipComment k es
    else skipComment inner es
  | inner, _ :: es => skipComment inner es

structure Stop where
  name : String
  words : List Word

mutual

/-- The nodes up to one of the given tags, or to the end where none is given. -/
def nodes : Nat → List String → List Element → Option (List Node × Option Stop × List Element)
  | 0, _, _ => none
  | fuel + 1, stops, es =>
    match es with
    | [] => if stops.isEmpty then some ([], none, []) else none
    | .tag n ws _ :: r =>
      if stops.contains n then some ([], some ⟨n, ws⟩, r)
      else do
        let (first, r) ← tagged fuel n ws r
        let (rest, stop, r) ← nodes fuel stops r
        return (first ++ rest, stop, r)
    | .text cs :: r => do
      let (rest, stop, r) ← nodes fuel stops r
      return (.text cs :: rest, stop, r)
    | .output c _ :: r => do
      let o ← Output.ofChain c
      let (rest, stop, r) ← nodes fuel stops r
      return (.output o :: rest, stop, r)
    | .invalid _ :: _ => none

def tagged : Nat → String → List Word → List Element → Option (List Node × List Element)
  | 0, _, _, _ => none
  | fuel + 1, n, ws, es =>
    match n with
    | "assign" => do
      let (name, o) ← assignment ws
      return ([.assign name o], es)
    | "comment" => do
      let r ← skipComment 0 es
      if ws.isEmpty then return ([], r) else none
    | "raw" => do
      let (source, r) ← rawBlock es
      if ws.isEmpty then return ([.text source], r) else none
    | "if" => branches fuel ws es
    | "unless" => do
      let c ← condition ws
      let (yes, stop, r) ← nodes fuel ["else", "endunless"] es
      let (no, r) ← otherwise fuel "endunless" false stop r
      return ([.choose c false yes no], r)
    | "for" => do
      let (name, domain) ← iteration ws
      let (body, stop, r) ← nodes fuel ["else", "endfor"] es
      let (no, r) ← otherwise fuel "endfor" true stop r
      return ([.loop name domain body no], r)
    | _ => none

def branches : Nat → List Word → List Element → Option (List Node × List Element)
  | 0, _, _ => none
  | fuel + 1, ws, es => do
    let c ← condition ws
    let (yes, stop, r) ← nodes fuel ["elsif", "else", "endif"] es
    match stop with
    | some ⟨"elsif", ws⟩ => do
      let (no, r) ← branches fuel ws r
      return ([.choose c true yes no], r)
    | stop => do
      let (no, r) ← otherwise fuel "endif" true stop r
      return ([.choose c true yes no], r)

/-- The part after "else", if the block has one. Nothing may stand behind the name of an end tag, nor
behind "else" in a block that wants it bare. -/
def otherwise : Nat → String → Bool → Option Stop → List Element →
    Option (List Node × List Element)
  | 0, _, _, _, _ => none
  | fuel + 1, ending, bare, stop, es => do
    let stop ← stop
    if stop.name = "else" then
      if bare && !stop.words.isEmpty then none
      else
        let (no, last, r) ← nodes fuel [ending] es
        let last ← last
        if last.words.isEmpty then return (no, r) else none
    else if stop.words.isEmpty then return ([], es) else none

end

def parse (source : String) : Option (List Node) :=
  let es := elements source.toList
  (nodes (4 * es.length + 4) [] es).map (·.1)

end ComponentDoc.Template
