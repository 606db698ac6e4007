import ComponentDoc.Value

set_option autoImplicit false

namespace ComponentDoc

inductive Interpolation where
  | none
  | batchWide
  | individual
  deriving DecidableEq, Inhabited

namespace Interpolation

def text : Interpolation → String
  | .none => "none"
  | .batchWide => "batch_wide"
  | .individual => "individual"

def ofText (s : String) : Option Interpolation :=
  if s = "none" then some .none
  else if s = "batch_wide" then some .batchWide
  else if s = "individual" then some .individual
  else Option.none

theorem ofText_text (i : Interpolation) : ofText i.text = some i := by cases i <;> decide

end Interpolation

/-- What is declared about one field; an empty type is left to inference. -/
structure Declaration where
  name : String
  type : String := ""
  description : String := ""
  advanced : Bool := false
  deprecated : Bool := false
  interpolation : Interpolation := .none
  examples : List Value := []
  options : List String := []
  deriving Inhabited

inductive Field where
  | node (declaration : Declaration) (children : List Field)
  deriving Inhabited

namespace Field

def declaration : Field → Declaration
  | ⟨d, _⟩ => d

def children : Field → List Field
  | ⟨_, fs⟩ => fs

def name (f : Field) : String := f.declaration.name

def hasChildren (f : Field) : Bool := !f.children.isEmpty

def modify (change : Declaration → Declaration) : Field → Field
  | ⟨d, fs⟩ => ⟨change d, fs⟩

def common (name description : String) : Field := ⟨{ name, description }, []⟩

def advanced (name description : String) : Field := ⟨{ name, description, advanced := true }, []⟩

def deprecated (name : String) : Field := ⟨{ name, deprecated := true }, []⟩

def withType (f : Field) (type : String) : Field := f.modify ({ · with type })

def withExamples (f : Field) (vs : List Value) : Field :=
  f.modify (fun d => { d with examples := d.examples ++ vs })

def withOptions (f : Field) (options : List String) : Field := f.modify ({ · with options })

def withInterpolation (f : Field) (interpolation : Interpolation) : Field :=
  f.modify ({ · with interpolation })

def supportsInterpolation (f : Field) (batchWide : Bool) : Field :=
  f.withInterpolation (if batchWide then .batchWide else .individual)

def withChildren (f : Field) (children : List Field) : Field := ⟨f.declaration, children⟩

def leaf (f : Field) : Field := ⟨f.declaration, []⟩

def find (name : String) (fields : List Field) : Option Field := fields.find? (fun f => f.name == name)

end Field

/-- A configurable component; without declared fields it is documented from its example alone. -/
structure Component where
  name : String
  category : String
  summary : String := ""
  description : String := ""
  fields : List Field := []
  deriving Inhabited

def Component.hasSchema (c : Component) : Bool := !c.fields.isEmpty

/-- Prose without the one newline that may lead it. -/
def trimNewline (s : String) : String :=
  match s.toList with
  | '\n' :: cs => String.ofList cs
  | _ => s

end ComponentDoc
