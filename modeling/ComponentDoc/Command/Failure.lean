import ComponentDoc.Layout

/-!
Failures as chains of causes, their texts, and the exit codes that they lead to.
-/

set_option autoImplicit false

namespace ComponentDoc.Command

inductive ExitCode where
  | success
  | general
  | arguments
  | validation
  | layout
  deriving DecidableEq

def ExitCode.toNat : ExitCode → Nat
  | .success => 0
  | .general => 1
  | .arguments => 2
  | .validation => 3
  | .layout => 4

inductive ComponentError where
  | load (cause : LoadError)
  | schema (cause : SchemaError)
  deriving DecidableEq

namespace ComponentError

def message : ComponentError → String
  | .load cause => cause.message
  | .schema cause => cause.message

def exit : ComponentError → ExitCode
  | .load _ => .arguments
  | .schema .unwritable => .general
  | .schema _ => .validation

end ComponentError

inductive RenderError where
  | component (cause : ComponentError)
  | config (cause : ConfigError)
  | layout (cause : LayoutError)
  deriving DecidableEq

namespace RenderError

def ofDocument : DocumentError → RenderError
  | .schema cause => .component (.schema cause)
  | .layout cause => .layout cause

def message : RenderError → String
  | .component cause => cause.message
  | .config cause => cause.message
  | .layout cause => cause.message

def exit : RenderError → ExitCode
  | .component cause => cause.exit
  | .layout _ => .layout
  | .config (.unsupported _ _) => .arguments
  | .config (.unreadable _ _) => .arguments
  | .config _ => .general

end RenderError

/-- One link of the chain from a failure to its origin. -/
inductive Cause where
  | note (text : String)
  | component (error : ComponentError)
  | render (error : RenderError)
  | file (error : FileError)
  | reading (error : Yaml.ReadError)
  | toml
  deriving DecidableEq

namespace Cause

/-- The text of a cause. What a reader says of a document's form is left open. -/
def text : Cause → Option String
  | .note text => some text
  | .component error => some error.message
  | .render error => some error.message
  | .file error => some error.text
  | .reading error => error.detail
  | .toml => none

def render? : Cause → Option RenderError
  | .render error => some error
  | _ => none

def component? : Cause → Option ComponentError
  | .component error => some error
  | _ => none

/-- The exit code that a cause settles, which only errors of the two kinds do. -/
def exit (c : Cause) : Option ExitCode :=
  match c.render? with
  | some error => some error.exit
  | none => c.component?.map ComponentError.exit

end Cause

def ComponentError.sources : ComponentError → List Cause
  | .load (.unreadable _ cause) => [.file cause]
  | .load (.yaml cause) => [.reading cause]
  | .schema _ => []

def RenderError.sources : RenderError → List Cause
  | .component cause => cause.sources
  | .config (.unreadable _ cause) => [.file cause]
  | .config (.yaml cause) => [.reading cause]
  | .config .toml => [.toml]
  | .config (.unsupported _ _) => []
  | .layout _ => []

structure Failure where
  outermost : Cause
  sources : List Cause
  deriving DecidableEq

namespace Failure

def ofComponent (e : ComponentError) : Failure := ⟨.component e, e.sources⟩

def ofRender (e : RenderError) : Failure := ⟨.render e, e.sources⟩

def ofText (text : String) : Failure := ⟨.note text, []⟩

def causes (f : Failure) : List Cause := f.outermost :: f.sources

def within (f : Failure) (text : String) : Failure := ⟨.note text, f.causes⟩

def message (f : Failure) : String := ": ".intercalate (f.causes.filterMap Cause.text)

/-- Whether the text of the outermost cause has the word in it, in upper or lower case. No letter beyond
ASCII has a lower case that could complete the word. -/
def namesValidation (f : Failure) : Bool :=
  (f.outermost.text.getD "").toLower.contains "validation"

/-- The exit code of the first cause that settles one, else the one that the text suggests. -/
def exit (f : Failure) : ExitCode :=
  match f.causes.findSome? Cause.exit with
  | some code => code
  | none => if f.namesValidation then .validation else .general

end Failure

end ComponentDoc.Command
