import ComponentDoc.Context
import ComponentDoc.Template.Eval

set_option autoImplicit false

namespace ComponentDoc

inductive LayoutError where
  | malformed
  | failed
  deriving DecidableEq

def LayoutError.message : LayoutError → String
  | .malformed => "Template parsing failed: ..."
  | .failed => "Template rendering failed: ..."

namespace Layout

/-- The built-in layout: the component's texts, one example block or two in tabs, and a section for
each field. -/
def standard : String := String.intercalate "\n" [
  "---",
  "title: \x7b\x7b name \x7d\x7d",
  "type: \x7b\x7b type \x7d\x7d",
  "---",
  "",
  "<!--",
  "     THIS FILE IS AUTOGENERATED!",
  "",
  "     To make changes please edit the contents of:",
  "     \x7b\x7b source_hint \x7d\x7d",
  "-->",
  "",
  "\x7b% if summary != \"\" -%\x7d",
  "\x7b\x7b summary \x7d\x7d",
  "\x7b% endif %\x7d",
  "\x7b% if common_config == advanced_config -%\x7d",
  "```yaml",
  "\x7b\x7b common_config -\x7d\x7d",
  "```",
  "\x7b% else %\x7d",
  "import Tabs from '@theme/Tabs';",
  "",
  "<Tabs defaultValue=\"common\" values=\x7b[",
  "  \x7b label: 'Common', value: 'common', \x7d,",
  "  \x7b label: 'Advanced', value: 'advanced', \x7d,",
  "]\x7d>",
  "",
  "import TabItem from '@theme/TabItem';",
  "",
  "<TabItem value=\"common\">",
  "",
  "```yaml",
  "\x7b\x7b common_config -\x7d\x7d",
  "```",
  "",
  "</TabItem>",
  "<TabItem value=\"advanced\">",
  "",
  "```yaml",
  "\x7b\x7b advanced_config -\x7d\x7d",
  "```",
  "",
  "</TabItem>",
  "</Tabs>",
  "\x7b% endif -%\x7d",
  "\x7b% if description != \"\" %\x7d",
  "\x7b\x7b description \x7d\x7d",
  "\x7b% endif %\x7d",
  "\x7b% if fields.size > 0 -%\x7d",
  "## Fields",
  "",
  "\x7b% endif -%\x7d",
  "\x7b% for field in fields -%\x7d",
  "### `\x7b\x7b field.name \x7d\x7d`",
  "",
  "`\x7b\x7b field.type \x7d\x7d` \x7b\x7b field.description \x7d\x7d",
  "\x7b% if field.options.size > 0 %\x7d",
  "Options are: \x7b% for option in field.options %\x7d\x7b% unless forloop.first %\x7d, \x7b% endunless %\x7d`\x7b\x7b option \x7d\x7d`\x7b% endfor %\x7d.",
  "\x7b% endif %\x7d",
  "\x7b% if field.interpolation_note != \"\" -%\x7d",
  "\x7b\x7b field.interpolation_note \x7d\x7d",
  "",
  "\x7b% endif -%\x7d",
  "\x7b% if field.examples.size > 0 -%\x7d",
  "```yaml",
  "# Examples",
  "",
  "\x7b% for example in field.examples %\x7d\x7b% unless forloop.first %\x7d",
  "\x7b% endunless %\x7d\x7b\x7b example \x7d\x7d\x7b% endfor -%\x7d",
  "```",
  "",
  "\x7b% endif -%\x7d",
  "\x7b% endfor %\x7d",
  ""]

end Layout

open Template (Datum)

def FieldEntry.datum (f : FieldEntry) : Datum :=
  .record [("name", .text f.name.toList), ("type", .text f.type.toList),
    ("description", .text f.description.toList), ("advanced", .bool f.advanced),
    ("interpolation", .text f.interpolation.text.toList),
    ("interpolation_note", .text f.interpolationNote.toList),
    ("examples", .list (f.examples.map (fun s => .text s.toList))),
    ("options", .list (f.options.map (fun s => .text s.toList)))]

def Context.scope (c : Context) : Template.Scope :=
  [("name", .text c.name.toList), ("type", .text c.category.toList),
    ("summary", .text c.summary.toList), ("description", .text c.description.toList),
    ("source_hint", .text c.sourceHint.toList), ("fields", .list (c.fields.map FieldEntry.datum)),
    ("common_config", .text c.commonConfig.toList),
    ("advanced_config", .text c.advancedConfig.toList)]

namespace Layout

def render (layout : String) (c : Context) : Except LayoutError String :=
  match Template.parse layout with
  | none => .error .malformed
  | some template =>
    match Template.render c.scope template with
    | none => .error .failed
    | some text => .ok text

end Layout

inductive DocumentError where
  | schema (cause : SchemaError)
  | layout (cause : LayoutError)
  deriving DecidableEq

def document (config : Config) (c : Component) (sample : Value) : Except DocumentError String :=
  match Context.build config c sample with
  | .error e => .error (.schema e)
  | .ok context => (Layout.render Layout.standard context).mapError .layout

end ComponentDoc
