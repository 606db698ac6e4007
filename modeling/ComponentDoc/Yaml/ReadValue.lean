import ComponentDoc.Value
import ComponentDoc.Yaml.Decoder

set_option autoImplicit false

namespace ComponentDoc.Yaml
open Decoder

def withTag (tag : Option Octets) (v : Value) : Value :=
  match tag.bind Octets.localName with
  | some name => .tagged name v
  | none => v

def Scalar.value (place : Trail) (cs : List Char) : Scalar → Decoder Value
  | .null => return .null
  | .bool b => return .bool b
  | .int i => return .int i
  | .tooLarge i => misfit place (.wrongType (.tooLarge i) .value)
  | .float x => return .float x
  | .text => return .str (String.ofList cs)

/-- A tag of the document's own says nothing about how the text reads. -/
def scalarValue (place : Trail) (p : Properties) (st : Style) (cs : List Char) : Decoder Value :=
  match p.tag.bind Octets.localName with
  | some name => do
    let s := if st = .plain then Scalar.ofPlain cs else .text
    return .tagged name (← s.value place cs)
  | none =>
    match Scalar.reading p.tag st cs with
    | some s => s.value place cs
    | none => malformed

def readEntries (read : Trail → Node → Decoder Value) (place : Trail)
    (entries : List (Value × Value)) : List (Node × Node) → Decoder (List (Value × Value))
  | [] => return entries
  | (k, v) :: es => do
    let key ← read place k
    if entries.any (fun e => e.1.same key) then malformed
    else
      let inner := match k with
        | .scalar _ _ cs => Trail.key place (String.ofList cs)
        | _ => .unknown place
      let value ← read inner v
      readEntries read place (entries ++ [(key, value)]) es

def readValue (src : Source) : Nat → Trail → Node → Decoder Value
  | 0, place, n => do
    match ← follow src n with
    | .scalar p st cs => scalarValue place p st cs
    | _ => malformed
  | d + 1, place, n => do
    match ← follow src n with
    | .scalar p st cs => scalarValue place p st cs
    | .seq p items => do
      let vs ← eachItem (fun i => readValue src d (.item place i)) 0 items
      return withTag p.tag (.seq vs)
    | .map p entries => do
      let es ← readEntries (readValue src d) place [] entries
      return withTag p.tag (.map es)
    | _ => malformed

def parseValue (text : String) : Except ReadError Value :=
  decode (fun src => readValue src maxDepth) text

end ComponentDoc.Yaml
