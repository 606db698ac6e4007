import ComponentDoc.Error
import ComponentDoc.Value.Access
import ComponentDoc.Yaml.Printer
import ComponentDoc.Yaml.Scalar

/-!
The tree that stands for a value. A text with a line feed asks for a literal block, and a text that a
plain scalar would not give back is quoted. Two kinds of value have no tree: a tag directly on a tag,
and a mapping whose one key would be taken for its tag.
-/

set_option autoImplicit false

namespace ComponentDoc.Yaml

def textStyle (cs : List Char) : Style :=
  if cs.contains '\n' then .literal
  else if Scalar.ofPlain cs = .text ∧ !Scalar.hasNeedlessZero cs then .plain
  else .single

def textNode (tag : Option Octets) (s : String) : Node :=
  .scalar { tag } (textStyle s.toList) s.toList

def plainNode (tag : Option Octets) (cs : List Char) : Node := .scalar { tag } .plain cs

def isTagLike : Value → Bool
  | .tagged _ _ => true
  | .map es => es.length == 1
  | _ => false

/-- A mapping of one entry, without a tag of its own, whose key is taken for its tag. -/
def losesKey (tag : Option Octets) : List (Value × Value) → Bool
  | [(k, _)] => tag.isNone && isTagLike k
  | _ => false

mutual

def represent (tag : Option Octets) : Value → Option Node
  | .null => some (plainNode tag ['n', 'u', 'l', 'l'])
  | .bool b => some (plainNode tag (Value.boolText b).toList)
  | .int i => some (plainNode tag (Decimal.intText i))
  | .float x => some (plainNode tag x.text)
  | .str s => some (textNode tag s)
  | .seq vs => (representItems vs).map (.seq { tag })
  | .map es => if losesKey tag es then none else (representEntries es).map (.map { tag })
  | .tagged name v => if tag.isSome then none else represent (some (Octets.ofName name)) v

def representItems : List Value → Option (List Node)
  | [] => some []
  | v :: vs => do
    let n ← represent none v
    let ns ← representItems vs
    return n :: ns

def representEntries : List (Value × Value) → Option (List (Node × Node))
  | [] => some []
  | (k, v) :: es => do
    let j ← represent none k
    let n ← represent none v
    let ns ← representEntries es
    return (j, n) :: ns

end

def write (v : Value) : Except SchemaError String :=
  match represent none v with
  | some n => .ok n.print
  | none => .error .unwritable

end ComponentDoc.Yaml
