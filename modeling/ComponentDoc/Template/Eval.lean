import ComponentDoc.Template.Parser
import ComponentDoc.Text.Character

/-!
Rendering templates. Values enter the output as they are. A name is looked up in the loops around it,
then among the assigned names, then in the data of the template; an unknown name fails wherever its
value is needed, and counts as false where only its presence is asked.
-/

set_option autoImplicit false

namespace ComponentDoc.Template

abbrev Scope := List (String × Datum)

/-- The loops around a place and the data of the template; what is assigned comes between them. -/
structure Frame where
  loops : Scope
  globals : Scope

def Frame.find (f : Frame) (assigned : Scope) (name : String) : Option Datum :=
  (f.loops.lookup name).or ((assigned.lookup name).or (f.globals.lookup name))

mutual

def Expr.eval (find : String → Option Datum) : Expr → Option Datum
  | .literal d => some d
  | .variable name indices => do
    let d ← find name
    Expr.evalIndices find d indices

def Expr.evalIndices (find : String → Option Datum) (d : Datum) : List Expr → Option Datum
  | [] => some d
  | e :: es => do
    let key ← e.eval find
    let d ← d.index key
    Expr.evalIndices find d es

end

def Filter.apply (find : String → Option Datum) (d : Datum) : Filter → Option Datum
  | .upper => some (.text (Text.upper d.render))
  | .size => some (.int d.size)
  | .append e => (e.eval find).map (fun suffix => .text (d.render ++ suffix.render))

def Filter.applyAll (find : String → Option Datum) (d : Datum) : List Filter → Option Datum
  | [] => some d
  | f :: fs => do
    let d ← f.apply find d
    Filter.applyAll find d fs

def Output.eval (find : String → Option Datum) (o : Output) : Option Datum := do
  let d ← o.start.eval find
  Filter.applyAll find d o.filters

def Condition.eval (find : String → Option Datum) : Condition → Option Bool
  | .holds e => some ((e.eval find).getD .nil).isTrue
  | .compares c l r => do
    let a ← l.eval find
    let b ← r.eval find
    a.compareBy c b
  | .both a b => do
    let x ← a.eval find
    if x then b.eval find else return false
  | .either a b => do
    let x ← a.eval find
    if x then return true else b.eval find

def loopRecord (length i : Nat) (parent : Datum) : Datum :=
  .record [("length", .int length), ("parentloop", parent), ("index0", .int i),
    ("index", .int (i + 1)), ("rindex0", .int (length - i - 1 : Nat)),
    ("rindex", .int (length - i : Nat)), ("first", .bool (i == 0)), ("last", .bool (i + 1 == length))]

/-- What a loop runs over. A record gives its members as pairs. -/
def items : Datum → Option (List Datum)
  | .list ds => some ds
  | .record ms => some (ms.map (fun (k, d) => .list [.text k.toList, d]))
  | .nil => some []
  | .empty => some []
  | .blank => some []
  | _ => none

def eachItem (body : Nat → Datum → Scope → Option (List Char × Scope)) (i : Nat) :
    List Datum → Scope → Option (List Char × Scope)
  | [], assigned => some ([], assigned)
  | d :: ds, assigned => do
    let (first, assigned) ← body i d assigned
    let (rest, assigned) ← eachItem body (i + 1) ds assigned
    return (first ++ rest, assigned)

mutual

def Node.render (f : Frame) (assigned : Scope) : Node → Option (List Char × Scope)
  | .text cs => some (cs, assigned)
  | .output o => do
    let d ← o.eval (f.find assigned)
    return (d.render, assigned)
  | .assign name o => do
    let d ← o.eval (f.find assigned)
    return ([], (name, d) :: assigned)
  | .choose c wanted yes no => do
    let b ← c.eval (f.find assigned)
    if b == wanted then Node.renderAll f assigned yes else Node.renderAll f assigned no
  | .loop name domain body otherwise => do
    let d ← domain.eval (f.find assigned)
    let ds ← items d
    if ds.isEmpty then Node.renderAll f assigned otherwise
    else
      let parent := (f.loops.lookup "forloop").getD .nil
      eachItem (fun i d assigned =>
        let inner := [("forloop", loopRecord ds.length i parent), (name, d)]
        Node.renderAll { f with loops := inner ++ f.loops } assigned body) 0 ds assigned

def Node.renderAll (f : Frame) (assigned : Scope) : List Node → Option (List Char × Scope)
  | [] => some ([], assigned)
  | n :: ns => do
    let (first, assigned) ← Node.render f assigned n
    let (rest, assigned) ← Node.renderAll f assigned ns
    return (first ++ rest, assigned)

end

def render (globals : Scope) (template : List Node) : Option String :=
  (Node.renderAll ⟨[], globals⟩ [] template).map (fun out => String.ofList out.1)

end ComponentDoc.Template
