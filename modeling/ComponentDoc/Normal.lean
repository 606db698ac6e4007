import ComponentDoc.Yaml.ReadComponent
import ComponentDoc.Yaml.Represent

set_option autoImplicit false

namespace ComponentDoc

namespace Value

def stringKey (k : Value) : Value :=
  match k.keyText with
  | some s => .str s
  | none => k

mutual

def stringKeys : Value → Value
  | .seq vs => .seq (stringKeysItems vs)
  | .map es => ofEntries (stringKeysEntries es)
  | .tagged t v => .tagged t v.stringKeys
  | v => v

def stringKeysItems : List Value → List Value
  | [] => []
  | v :: vs => v.stringKeys :: stringKeysItems vs

def stringKeysEntries : List (Value × Value) → List (Value × Value)
  | [] => []
  | (k, v) :: es => (stringKey k, v.stringKeys) :: stringKeysEntries es

end

end Value

/-- A value written out, read back, and keyed by strings. -/
def Value.normalize (v : Value) : Except SchemaError Value := do
  let text ← Yaml.write v
  match Yaml.parseValue text with
  | .ok w => .ok w.stringKeys
  | .error _ => .error .unwritable

def Value.entryUnless (condition : Bool) (key : String) (v : Value) : List (Value × Value) :=
  if condition then [] else [(.str key, v)]

def Declaration.entries (d : Declaration) : List (Value × Value) :=
  [(.str "name", .str d.name)] ++
  Value.entryUnless (d.type == "") "type" (.str d.type) ++
  [(.str "description", .str d.description),
    (.str "advanced", .bool d.advanced),
    (.str "deprecated", .bool d.deprecated),
    (.str "interpolation", .str d.interpolation.text)] ++
  Value.entryUnless d.examples.isEmpty "examples" (.seq d.examples) ++
  Value.entryUnless d.options.isEmpty "options" (.seq (d.options.map .str))

mutual

def Field.toValue : Field → Value
  | ⟨d, fs⟩ =>
    .map (d.entries ++ Value.entryUnless fs.isEmpty "children" (.seq (Field.allToValues fs)))

def Field.allToValues : List Field → List Value
  | [] => []
  | f :: fs => f.toValue :: Field.allToValues fs

end

def Component.toValue (c : Component) : Value :=
  .map [(.str "name", .str c.name), (.str "type", .str c.category), (.str "summary", .str c.summary),
    (.str "description", .str c.description), (.str "fields", .seq (Field.allToValues c.fields))]

end ComponentDoc
