import ComponentDoc.Config
import ComponentDoc.Json
import ComponentDoc.Normal
import ComponentDoc.Placeholder
import ComponentDoc.Reconciliation
import ComponentDoc.Tiers

/-!
What a document says about a component: its own texts, both example blocks, and one entry for each
field that is not deprecated. The example is normalized first, then split, then reconciled with the
schema, and then each field is looked up in it; the first of these that fails decides.
-/

set_option autoImplicit false

namespace ComponentDoc

structure ExampleBlocks where
  advanced : String
  common : String
  deriving DecidableEq

namespace ExampleBlocks

def isUniform (b : ExampleBlocks) : Bool := b.advanced == b.common

def wrapped (name root : String) (v : Value) : Value :=
  if root = "" then Value.wrap name v else Value.wrap root (Value.wrap name v)

/-- Without declared fields there is one block, which stands for both tiers. -/
def ofExample (c : Component) (root : String) (full : Value) : Except SchemaError ExampleBlocks := do
  let tiers ← Tiers.split c.fields full
  let advanced ← Yaml.write (wrapped c.name root tiers.advanced)
  let common ← if c.hasSchema then Yaml.write (wrapped c.name root tiers.common) else .ok advanced
  return ⟨advanced, common⟩

end ExampleBlocks

/-- The documentation of one field under its dotted path; examples are written out. -/
structure FieldEntry where
  name : String
  type : String
  description : String
  advanced : Bool
  interpolation : Interpolation
  interpolationNote : String
  examples : List String
  options : List String
  deriving DecidableEq, Inhabited

structure Context where
  name : String
  category : String
  summary : String
  description : String
  sourceHint : String
  fields : List FieldEntry
  commonConfig : String
  advancedConfig : String
  deriving DecidableEq, Inhabited

namespace Context

def hasTiers (c : Context) : Bool := c.commonConfig != c.advancedConfig

def find (c : Context) (name : String) : Option FieldEntry := c.fields.find? (fun f => f.name == name)

/-- The note on a field that supports interpolation, with a link to its documentation. -/
def noteFor (url : String) : Interpolation → String
  | .none => ""
  | .batchWide =>
    "This field supports [interpolation functions](" ++ url ++ ") that are resolved batch wide."
  | .individual => "This field supports [interpolation functions](" ++ url ++ ")."

def hintFor (config : Config) (c : Component) : String :=
  Placeholder.fill ([("name", c.name), ("type", c.category)].lookup ·) config.sourceHint

def describe (config : Config) (description : String) : String :=
  if description = "" then config.missingDescription else trimNewline description

def writeExamples (path : String) : List Value → Except SchemaError (List String)
  | [] => .ok []
  | v :: vs => do
    let text ← Yaml.write (Value.wrap path v)
    let rest ← writeExamples path vs
    return text :: rest

def entry (config : Config) (full : Value) (f : FlatField) : Except SchemaError FieldEntry :=
  match full.lookup f.path with
  | none => .error (.unrecognized f.path)
  | some found => do
    let d := f.declaration
    let type ← Schema.inferType f.path d (some found)
    let examples ← writeExamples f.path d.examples
    return {
      name := f.path
      type
      description := describe config d.description
      advanced := d.advanced
      interpolation := d.interpolation
      interpolationNote := noteFor config.interpolationDocsUrl d.interpolation
      examples
      options := d.options }

def entries (config : Config) (full : Value) : List FlatField → Except SchemaError (List FieldEntry)
  | [] => .ok []
  | f :: fs => do
    let e ← entry config full f
    let rest ← entries config full fs
    return e :: rest

def root (config : Config) (c : Component) : String := if config.nest then c.category else ""

/-- Without declared fields the example is documented as it is. -/
def flatFields (c : Component) (full : Value) : Except SchemaError (List FlatField) :=
  if c.hasSchema then Schema.check c.fields full else .ok []

def build (config : Config) (c : Component) (sample : Value) : Except SchemaError Context := do
  let full ← sample.normalize
  let blocks ← ExampleBlocks.ofExample c (root config c) full
  let flat ← flatFields c full
  let fields ← entries config full (flat.filter (fun f => !f.declaration.deprecated))
  return {
    name := c.name
    category := c.category
    summary := c.summary
    description := trimNewline c.description
    sourceHint := hintFor config c
    fields
    commonConfig := blocks.common
    advancedConfig := blocks.advanced }

def entryJson (f : FieldEntry) : Json :=
  .record [("name", .str f.name), ("type", .str f.type), ("description", .str f.description),
    ("advanced", .bool f.advanced), ("interpolation", .str f.interpolation.text),
    ("interpolation_note", .str f.interpolationNote), ("examples", .list (f.examples.map .str)),
    ("options", .list (f.options.map .str))]

def json (c : Context) : String :=
  (Json.record [("name", .str c.name), ("type", .str c.category), ("summary", .str c.summary),
    ("description", .str c.description), ("source_hint", .str c.sourceHint),
    ("fields", .list (c.fields.map entryJson)), ("common_config", .str c.commonConfig),
    ("advanced_config", .str c.advancedConfig)]).text

end Context

end ComponentDoc
