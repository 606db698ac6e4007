import ComponentDoc.Yaml.Parser
import ComponentDoc.Yaml.ReadError
import ComponentDoc.Yaml.Scalar

/-!
Reading data out of a document's tree. Aliases are followed to the nodes they name, for at most a
hundred times as many steps as the document has parts; collections may lie at most 128 deep. The first
problem in document order is reported.
-/

set_option autoImplicit false

namespace ComponentDoc.Yaml

namespace Node

mutual

/-- Whether the document breaks off inside a node. -/
def hasCut : Node → Bool
  | .cut => true
  | .seq _ items => itemsHaveCut items
  | .map _ entries => entriesHaveCut entries
  | _ => false

def itemsHaveCut : List Node → Bool
  | [] => false
  | n :: ns => n.hasCut || itemsHaveCut ns

def entriesHaveCut : List (Node × Node) → Bool
  | [] => false
  | (k, v) :: es => k.hasCut || v.hasCut || entriesHaveCut es

end

mutual

/-- The number of parts of a node: one for a scalar or an alias, two for the ends of a collection. -/
def partCount : Node → Nat
  | .scalar _ _ _ => 1
  | .alias _ => 1
  | .cut => 0
  | .seq _ items => 1 + itemsCount items + (if itemsHaveCut items then 0 else 1)
  | .map _ entries => 1 + entriesCount entries + (if entriesHaveCut entries then 0 else 1)

def itemsCount : List Node → Nat
  | [] => 0
  | n :: ns => n.partCount + itemsCount ns

def entriesCount : List (Node × Node) → Nat
  | [] => 0
  | (k, v) :: es => k.partCount + v.partCount + entriesCount es

end

def ownAnchor (p : Properties) (n : Node) : List (Nat × Node) :=
  match p.anchor with
  | some a => [(a, n)]
  | none => []

mutual

def anchored : Node → List (Nat × Node)
  | .scalar p st cs => ownAnchor p (.scalar p st cs)
  | .seq p items => ownAnchor p (.seq p items) ++ itemsAnchored items
  | .map p entries => ownAnchor p (.map p entries) ++ entriesAnchored entries
  | _ => []

def itemsAnchored : List Node → List (Nat × Node)
  | [] => []
  | n :: ns => n.anchored ++ itemsAnchored ns

def entriesAnchored : List (Node × Node) → List (Nat × Node)
  | [] => []
  | (k, v) :: es => k.anchored ++ v.anchored ++ entriesAnchored es

end

end Node

/-- What reading needs to know of the whole document. A number given twice names the later node. -/
structure Source where
  targets : List (Nat × Node)
  jumps : Nat

def Source.of (root : Node) : Source := ⟨root.anchored.reverse, root.partCount * 100⟩

abbrev Decoder (α : Type) := StateT Nat (Except ReadError) α

namespace Decoder

def fail {α : Type} (e : ReadError) : Decoder α := throw e

def malformed {α : Type} : Decoder α := fail .malformed

def misfit {α : Type} (place : Trail) (problem : Problem) : Decoder α := fail (.misfit place problem)

def follow (src : Source) : Node → Decoder Node
  | .alias a => do
    let n ← get
    if n + 1 > src.jumps then malformed
    else
      set (n + 1)
      match src.targets.lookup a with
      | some n => return n
      | none => malformed
  | n => return n

def ignore (n : Node) : Decoder Unit := if n.hasCut then malformed else return ()

def eachItem {α : Type} (read : Nat → Node → Decoder α) (index : Nat) : List Node → Decoder (List α)
  | [] => return []
  | n :: ns => do
    let x ← read index n
    let xs ← eachItem read (index + 1) ns
    return x :: xs

end Decoder

open Decoder

def boolTag : Octets := Octets.ofText "tag:yaml.org,2002:bool"

def intTag : Octets := Octets.ofText "tag:yaml.org,2002:int"

def floatTag : Octets := Octets.ofText "tag:yaml.org,2002:float"

def nullTag : Octets := Octets.ofText "tag:yaml.org,2002:null"

/-- The reading of a scalar. The tags of the core schema force a type, which the text may not fit; any
other schema's tag makes it a text. -/
def Scalar.reading (tag : Option Octets) (style : Style) (cs : List Char) : Option Scalar :=
  match tag with
  | none => some (if style = .plain then ofPlain cs else .text)
  | some t =>
    if t = boolTag then (readBool cs).map .bool
    else if t = intTag then (readInteger cs).bind ofInteger
    else if t = floatTag then (readFloat cs).map .float
    else if t = nullTag then (if readNull cs then some .null else none)
    else if t.head? = some Octets.bang ∧ style = .plain then some (ofPlain cs)
    else some .text

def Scalar.found (cs : List Char) : Scalar → Found
  | .null => .unit
  | .bool b => .bool b
  | .int i => .int i
  | .tooLarge i => .tooLarge i
  | .float x => .float x
  | .text => .text (String.ofList cs)

def wrongType {α : Type} (place : Trail) (wanted : Wanted) : Node → Decoder α
  | .scalar p st cs =>
    match Scalar.reading p.tag st cs with
    | some s => misfit place (.wrongType (s.found cs) wanted)
    | none => malformed
  | .seq _ _ => misfit place (.wrongType .sequence wanted)
  | .map _ _ => misfit place (.wrongType .mapping wanted)
  | _ => malformed

def isEmptyPlain : Node → Bool
  | .scalar _ .plain [] => true
  | _ => false

def readText (src : Source) (place : Trail) (n : Node) : Decoder String := do
  match ← follow src n with
  | .scalar _ _ cs => return String.ofList cs
  | n => wrongType place .text n

def mayBeBool (p : Properties) (st : Style) : Bool :=
  st == .plain || st == .literal && p.tag == some boolTag

def readBool (src : Source) (place : Trail) (n : Node) : Decoder Bool := do
  match ← follow src n with
  | .scalar p st cs =>
    match mayBeBool p st, Scalar.readBool cs with
    | true, some b => return b
    | _, _ => wrongType place .bool (.scalar p st cs)
  | n => wrongType place .bool n

def deeper {α : Type} (depth : Nat) (read : Nat → α) : Option α :=
  match depth with
  | 0 => none
  | d + 1 => some (read d)

def readList {α : Type} (src : Source) (place : Trail)
    (read : Option (Trail → Node → Decoder α)) (n : Node) : Decoder (List α) := do
  match ← follow src n with
  | .seq _ items =>
    match read with
    | none => malformed
    | some read => eachItem (fun i => read (.item place i)) 0 items
  | n => if isEmptyPlain n then return [] else wrongType place .sequence n

abbrev Member (ρ : Type) := Trail → Node → Decoder (ρ → ρ)

def storing {ρ α : Type} (read : Trail → Node → Decoder α) (store : α → ρ → ρ) : Member ρ :=
  fun place n => do
    let x ← read place n
    return store x

def readMembers {ρ : Type} (src : Source) (place : Trail)
    (member : String → Option (Member ρ)) : List String → ρ → List (Node × Node) →
    Decoder (List String × ρ)
  | seen, r, [] => return (seen, r)
  | seen, r, (k, v) :: es => do
    let name ← match ← follow src k with
      | .scalar _ _ cs => pure (String.ofList cs)
      | _ => malformed
    match member name with
    | none => do
      ignore v
      readMembers src place member seen r es
    | some m =>
      if seen.contains name then misfit place (.duplicate name)
      else
        let inner := match k with
          | .scalar _ _ _ => Trail.key place name
          | _ => .unknown place
        let change ← m inner v
        readMembers src place member (name :: seen) (change r) es

def requireAll (place : Trail) (seen : List String) : List String → Decoder Unit
  | [] => return ()
  | name :: names =>
    if seen.contains name then requireAll place seen names else misfit place (.missing name)

/-- A record with defaults: a mapping of members, or nothing. Without members to read it lies too
deep. -/
def readRecord {ρ : Type} (src : Source) (place : Trail) (wanted : Wanted)
    (member : Option (String → Option (Member ρ))) (required : List String) (start : ρ) (n : Node) :
    Decoder ρ := do
  match ← follow src n with
  | .map _ entries =>
    match member with
    | none => malformed
    | some member => do
      let (seen, r) ← readMembers src place member [] start entries
      requireAll place seen required
      return r
  | n =>
    if isEmptyPlain n then do
      requireAll place [] required
      return start
    else wrongType place wanted n

def maxDepth : Nat := 128

/-- Reads a whole text. A text without a document gives what an empty one gives; a text that goes on
after its first document, or wrong, is refused once that has been read. -/
def decode {α : Type} (read : Source → Trail → Node → Decoder α) (text : String) :
    Except ReadError α :=
  let doc := Document.read text.toList
  let root := doc.root.getD emptyNode
  match (read (Source.of root) .root root).run 0 with
  | .error e => .error e
  | .ok (x, _) => if doc.ended then .ok x else .error .malformed

end ComponentDoc.Yaml
