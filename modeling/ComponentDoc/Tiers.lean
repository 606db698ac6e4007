import ComponentDoc.Error
import ComponentDoc.Schema
import ComponentDoc.Value.Access

/-!
The two tiers of an example. The advanced tier keeps every declared field that is not deprecated, the
common tier those that are not advanced either. Entries come in the order of their declarations;
a field without children is copied whole, and one with children must hold a mapping.
-/

set_option autoImplicit false

namespace ComponentDoc

structure Tiers where
  advanced : Value
  common : Value
  deriving Inhabited

namespace Tiers

def shownAdvanced (d : Declaration) : Bool := !d.deprecated

def shownCommon (d : Declaration) : Bool := !d.deprecated && !d.advanced

mutual

def extractField (keep : Declaration → Bool) (above : String) (node : Value) :
    Field → Except SchemaError (List (Value × Value))
  | ⟨d, fs⟩ =>
    match keep d, node.getKey d.name with
    | true, some found =>
      if fs.isEmpty then .ok [(.str d.name, found)]
      else if found.asMapping.isNone then
        .error (.notMapping (Path.levelName (above ++ d.name ++ ".")))
      else (extractFields keep (above ++ d.name ++ ".") found fs).map
        (fun es => [(.str d.name, Value.ofEntries es)])
    | _, _ => .ok []

def extractFields (keep : Declaration → Bool) (above : String) (node : Value) :
    List Field → Except SchemaError (List (Value × Value))
  | [] => .ok []
  | f :: fs => do
    let entries ← extractField keep above node f
    let rest ← extractFields keep above node fs
    return entries ++ rest

end

def extract (keep : Declaration → Bool) (fields : List Field) (node : Value) :
    Except SchemaError Value :=
  if node.asMapping.isNone then .error (.notMapping (Path.levelName ""))
  else (extractFields keep "" node fields).map Value.ofEntries

def advancedOf (fields : List Field) (node : Value) : Except SchemaError Value :=
  extract shownAdvanced fields node

def commonOf (fields : List Field) (node : Value) : Except SchemaError Value :=
  extract shownCommon fields node

/-- The common tier is taken from the advanced one. Without declared fields both are the example. -/
def split (fields : List Field) (full : Value) : Except SchemaError Tiers :=
  if fields.isEmpty then .ok ⟨full, full⟩
  else do
    let advanced ← advancedOf fields full
    let common ← commonOf fields advanced
    return ⟨advanced, common⟩

end Tiers

end ComponentDoc
