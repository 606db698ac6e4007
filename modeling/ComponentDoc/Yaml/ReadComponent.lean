import ComponentDoc.Schema
import ComponentDoc.Yaml.ReadValue

set_option autoImplicit false

namespace ComponentDoc.Yaml
open Decoder

def interpolationOf (place : Trail) (name : String) : Decoder Interpolation :=
  match Interpolation.ofText name with
  | some i => return i
  | none => misfit place (.unknownVariant name)

def isBare : Node → Bool
  | .scalar _ .plain cs => cs.isEmpty || Scalar.readNull cs
  | _ => false

/-- An interpolation by its name, or as a tag on nothing. A tag that is none is told of the field
around it. -/
def readInterpolation (src : Source) (place : Trail) (n : Node) : Decoder Interpolation := do
  let n ← follow src n
  let tag := match n with
    | .scalar p _ _ | .seq p _ | .map p _ => p.tag.bind Octets.localText
    | _ => none
  match tag, n with
  | some name, n => do
    let i ← interpolationOf place.outer name
    if isBare n then return i else malformed
  | none, .scalar _ _ cs => interpolationOf place (String.ofList cs)
  | none, n => wrongType place .tag n

def fieldMember (src : Source) (depth : Nat) (children : Trail → Node → Decoder (List Field)) :
    String → Option (Member Field)
  | "name" => some (storing (readText src) (fun s f => f.modify ({ · with name := s })))
  | "type" => some (storing (readText src) (fun s f => f.withType s))
  | "description" => some (storing (readText src) (fun s f => f.modify ({ · with description := s })))
  | "advanced" => some (storing (readBool src) (fun b f => f.modify ({ · with advanced := b })))
  | "deprecated" => some (storing (readBool src) (fun b f => f.modify ({ · with deprecated := b })))
  | "interpolation" => some (storing (readInterpolation src) (fun i f => f.withInterpolation i))
  | "examples" => some (storing
      (fun place => readList src place (deeper depth (readValue src))) (fun vs f => f.withExamples vs))
  | "options" => some (storing
      (fun place => readList src place (deeper depth (fun _ => readText src)))
      (fun ss f => f.withOptions ss))
  | "children" => some (storing children (fun fs f => f.withChildren fs))
  | _ => none

def emptyField : Field := ⟨{ name := "" }, []⟩

mutual

def readField (src : Source) : Nat → Trail → Node → Decoder Field
  | 0, place, n => readRecord src place .field none ["name"] emptyField n
  | d + 1, place, n =>
    readRecord src place .field (some (fieldMember src d (readFields src d))) ["name"] emptyField n

def readFields (src : Source) : Nat → Trail → Node → Decoder (List Field)
  | 0, place, n => readList src place none n
  | d + 1, place, n => readList src place (some (readField src d)) n

end

def componentMember (src : Source) (depth : Nat) : String → Option (Member Component)
  | "name" => some (storing (readText src) (fun s c => { c with name := s }))
  | "type" => some (storing (readText src) (fun s c => { c with category := s }))
  | "summary" => some (storing (readText src) (fun s c => { c with summary := s }))
  | "description" => some (storing (readText src) (fun s c => { c with description := s }))
  | "fields" => some (storing (readFields src depth) (fun fs c => { c with fields := fs }))
  | _ => none

def readComponent (src : Source) (depth : Nat) (place : Trail) (n : Node) : Decoder Component :=
  readRecord src place .component (deeper depth (componentMember src)) ["name", "type"]
    { name := "", category := "" } n

def parseComponent (text : String) : Except ReadError Component :=
  decode (fun src => readComponent src maxDepth) text

end ComponentDoc.Yaml
