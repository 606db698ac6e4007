import ComponentDoc.Error
import ComponentDoc.Schema
import ComponentDoc.Text.Character

/-!
Findings about a schema. Errors make a schema unusable, warnings point at gaps in its documentation.
A finding carries the dotted path of the field it concerns, empty for the component itself.
-/

set_option autoImplicit false

namespace ComponentDoc

structure Finding where
  path : String
  message : String
  deriving DecidableEq

def Finding.text (f : Finding) : String :=
  if f.path = "" then f.message else f.path ++ ": " ++ f.message

structure LintReport where
  errors : List Finding := []
  warnings : List Finding := []
  deriving DecidableEq

namespace LintReport

def isValid (r : LintReport) : Bool := r.errors.isEmpty

def error (path message : String) : LintReport := ⟨[⟨path, message⟩], []⟩

def warning (path message : String) : LintReport := ⟨[], [⟨path, message⟩]⟩

def append (r s : LintReport) : LintReport := ⟨r.errors ++ s.errors, r.warnings ++ s.warnings⟩

instance : Append LintReport := ⟨append⟩

def withError (r : LintReport) (path message : String) : LintReport := r ++ error path message

def withWarning (r : LintReport) (path message : String) : LintReport := r ++ warning path message

def onlyIf (condition : Bool) (r : LintReport) : LintReport := if condition then r else {}

def firstOccurrences : List String → List String → List String
  | _, [] => []
  | seen, p :: ps =>
    if p ∈ seen then firstOccurrences seen ps else p :: firstOccurrences (p :: seen) ps

def errorPaths (r : LintReport) : List String := firstOccurrences [] (r.errors.map Finding.path)

end LintReport

namespace Schema

def isNameChar (c : Char) : Bool := c.isAlphanum || c == '_' || c == '-'

def isFieldName (s : String) : Bool := s != "" && s.toList.all isNameChar

/-- The findings about one declaration at its path, given the names of the siblings before it. -/
def lintDeclaration (path : String) (seen : List String) (d : Declaration) (nested : Bool) :
    LintReport :=
  .onlyIf (!isFieldName d.name) (.error path "invalid name") ++
  .onlyIf (seen.contains d.name) (.error path "declared more than once") ++
  .onlyIf (nested && !d.options.isEmpty) (.error path "declares options but has children") ++
  .onlyIf (d.deprecated && nested) (.warning path "deprecated but still declares children") ++
  .onlyIf (!d.deprecated && Text.allBlank d.description) (.warning path "missing documentation")

mutual

/-- A field without a name has no path, so nothing beneath it is looked at. -/
def lintField (above : String) (seen : List String) : Field → LintReport
  | ⟨d, fs⟩ =>
    if d.name = "" then .error (Path.trimDots above) "child field has an empty name"
    else lintDeclaration (above ++ d.name) seen d (!fs.isEmpty) ++
      lintLevel (above ++ d.name ++ ".") [] fs

def lintLevel (above : String) (seen : List String) : List Field → LintReport
  | [] => {}
  | f :: fs =>
    lintField above seen f ++
      lintLevel above (if f.name = "" then seen else f.name :: seen) fs

end

def lintFields (above : String) (fields : List Field) : LintReport := lintLevel above [] fields

def lint (c : Component) : LintReport :=
  .onlyIf (c.name == "") (.error "" "component name cannot be empty") ++
  .onlyIf (c.category == "") (.error "" ("component '" ++ c.name ++ "' has no type")) ++
  .onlyIf (c.summary == "") (.warning "" ("component '" ++ c.name ++ "' has no summary")) ++
  lintFields "" c.fields

def enforce (c : Component) : Except SchemaError LintReport :=
  if (lint c).isValid then .ok (lint c)
  else .error (.invalidSchema c.name ((lint c).errors.map Finding.text))

end Schema

end ComponentDoc
