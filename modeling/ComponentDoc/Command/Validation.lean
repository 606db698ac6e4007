import ComponentDoc.Reconciliation
import ComponentDoc.Schema.Enforce

set_option autoImplicit false

namespace ComponentDoc

/-- What validation finds. There is no reconciliation where no fields are declared. -/
structure Validation where
  report : LintReport
  reconciliation : Option Reconciliation

namespace Validation

def ofSample (c : Component) (sample : Value) : Validation :=
  ⟨Schema.lint c, if c.hasSchema then some (Schema.reconcile c.fields sample) else none⟩

def passes (strict : Bool) (v : Validation) : Bool :=
  v.report.isValid && !(strict && !v.report.warnings.isEmpty) &&
    v.reconciliation.all Reconciliation.isConsistent

def reportLines (r : LintReport) : List String :=
  (if r.isValid then ["   ✅ Schema lint passed"]
    else "   ❌ Schema lint failed:" :: r.errors.map (fun f => "      - " ++ f.text)) ++
  r.warnings.map (fun f => "   ⚠️  " ++ f.text)

def fieldLine (f : FlatField) : String :=
  "      " ++ f.path ++ " `" ++ f.label.getD "?" ++ "`" ++
    (if f.declaration.deprecated then " (deprecated)" else "")

def reconciliationLines : Option Reconciliation → List String
  | none => ["   ⚠️  No fields declared, example is documented as-is"]
  | some r =>
    if r.isConsistent then
      ("   ✅ " ++ toString r.fields.length ++ " fields reconciled") :: r.fields.map fieldLine
    else
      "   ❌ Example keys missing from the schema:" :: r.missing.map ("      - " ++ ·)

def lines (strict : Bool) (v : Validation) : List String :=
  ["📋 Linting schema..."] ++ reportLines v.report ++
  ["🔍 Reconciling schema with example..."] ++ reconciliationLines v.reconciliation ++ [""] ++
  (if v.passes strict then ["✅ All validations passed!"] else [])

end Validation

end ComponentDoc
