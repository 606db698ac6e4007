import ComponentDoc.Decimal.Text
import ComponentDoc.Text.Quoted

/-!
Why a document could not be read. What is wrong with its form is not told apart; what does not fit the
data that is wanted is told with the place where it stands.
-/

set_option autoImplicit false

namespace ComponentDoc.Yaml

/-- A place in a document, by keys and positions from its root. -/
inductive Trail where
  | root
  | key (parent : Trail) (name : String)
  | item (parent : Trail) (index : Nat)
  | unknown (parent : Trail)
  deriving DecidableEq

namespace Trail

def outer : Trail → Trail
  | .root => .root
  | .key parent _ => parent
  | .item parent _ => parent
  | .unknown parent => parent

/-- The trail as text. The root shows as a dot by itself and in front of a position. -/
def text : Trail → String
  | .root => "."
  | .key .root name => name
  | .key parent name => parent.text ++ "." ++ name
  | .item parent index => parent.text ++ "[" ++ toString index ++ "]"
  | .unknown .root => "?"
  | .unknown parent => parent.text ++ ".?"

end Trail

inductive Found where
  | unit
  | bool (b : Bool)
  | int (i : Int)
  | tooLarge (i : Int)
  | float (x : Binary64)
  | text (s : String)
  | sequence
  | mapping
  deriving DecidableEq

def Found.describe : Found → String
  | .unit => "unit value"
  | .bool b => "boolean `" ++ (if b then "true" else "false") ++ "`"
  | .int i => "integer `" ++ toString i ++ "`"
  | .tooLarge i => "integer `" ++ toString i ++ "` as " ++ (if i < 0 then "i128" else "u128")
  | .float x => "floating point `" ++ String.ofList x.plainText ++ "`"
  | .text s => "string " ++ Text.quoted s
  | .sequence => "sequence"
  | .mapping => "map"

inductive Wanted where
  | component
  | field
  | config
  | text
  | bool
  | sequence
  | value
  | tag
  deriving DecidableEq

def Wanted.describe : Wanted → String
  | .component => "struct ComponentSpec"
  | .field => "struct FieldSpec"
  | .config => "struct DocConfig"
  | .text => "a string"
  | .bool => "a boolean"
  | .sequence => "a sequence"
  | .value => "any YAML value"
  | .tag => "a YAML tag starting with '!'"

inductive Problem where
  | missing (member : String)
  | duplicate (member : String)
  | unknownVariant (name : String)
  | wrongType (found : Found) (wanted : Wanted)
  deriving DecidableEq

def Problem.describe : Problem → String
  | .missing member => "missing field `" ++ member ++ "`"
  | .duplicate member => "duplicate field `" ++ member ++ "`"
  | .unknownVariant name =>
    "unknown variant `" ++ name ++ "`, expected one of `none`, `batch_wide`, `individual`"
  | .wrongType found wanted => "invalid type: " ++ found.describe ++ ", expected " ++ wanted.describe

inductive ReadError where
  | malformed
  | misfit (place : Trail) (problem : Problem)
  deriving DecidableEq

def ReadError.detail : ReadError → Option String
  | .malformed => none
  | .misfit place problem =>
    some (if place.text = "." then problem.describe else place.text ++ ": " ++ problem.describe)

def ReadError.message (e : ReadError) : String := "YAML error: " ++ e.detail.getD "..."

end ComponentDoc.Yaml
