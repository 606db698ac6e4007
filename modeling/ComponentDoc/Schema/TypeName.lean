import ComponentDoc.Error
import ComponentDoc.Schema

set_option autoImplicit false

namespace ComponentDoc

def Kind.typeName : Kind → Option String
  | .null => none
  | .bool => some "bool"
  | .integer => some "number"
  | .float => some "number"
  | .string => some "string"
  | .sequence => some "array"
  | .mapping => some "object"

def Value.typeName (v : Value) : Option String := v.kind.typeName

namespace Schema

/-- Folds declared type names into the documentation vocabulary. -/
def foldType (raw : String) : String :=
  if raw ∈ ["map", "mapping", "struct"] then "object"
  else if raw ∈ ["slice", "sequence", "list"] then "array"
  else if raw ∈ ["float", "float32", "float64", "int", "int32", "int64", "integer", "uint", "uint64"]
    then "number"
  else if raw = "boolean" then "bool"
  else raw

def inferType (path : String) (d : Declaration) (found : Option Value) : Except SchemaError String :=
  if d.type ≠ "" then .ok (foldType d.type)
  else match (d.examples.head?.bind Value.typeName).or (found.bind Value.typeName) with
    | some t => .ok t
    | none => .error (.untyped path)

end Schema

end ComponentDoc
