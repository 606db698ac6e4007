import ComponentDoc.Schema.TypeName
import ComponentDoc.Value.Access

/-!
Reconciliation of a schema with an example. The walk lists every declaration under its dotted path,
parents before children, and collects the keys of the example that no declaration of their level
bears. A field without children is opaque: what lies beneath it in the example is not looked at. A
field beneath a deprecated one is listed as deprecated too.
-/

set_option autoImplicit false

namespace ComponentDoc

/-- A declaration under its full path. The label is the declared type, else the kind of the example's
value. -/
structure FlatField where
  path : String
  declaration : Declaration
  label : Option String
  deriving Inhabited

structure Reconciliation where
  fields : List FlatField := []
  missing : List String := []
  deriving Inhabited

namespace Reconciliation

def append (r s : Reconciliation) : Reconciliation := ⟨r.fields ++ s.fields, r.missing ++ s.missing⟩

instance : Append Reconciliation := ⟨append⟩

def isConsistent (r : Reconciliation) : Bool := r.missing.isEmpty

def checked (r : Reconciliation) : Except SchemaError (List FlatField) :=
  if r.isConsistent then .ok r.fields else .error (.undeclared r.missing)

def labelOf (d : Declaration) (found : Option Value) : Option String :=
  if d.type = "" then found.bind Value.typeName else some (Schema.foldType d.type)

/-- The keys of an example's level that no field bears. -/
def undeclared (fields : List Field) (node : Option Value) : List String :=
  ((node.map Value.childKeys).getD []).filter (fun k => !(fields.map Field.name).contains k)

mutual

def walkField (above : String) (node : Option Value) (deprecated : Bool) : Field → Reconciliation
  | ⟨d, fs⟩ =>
    let found := node.bind (·.getKey d.name)
    let flat := { d with deprecated := d.deprecated || deprecated }
    ⟨[⟨above ++ d.name, flat, labelOf d found⟩], []⟩ ++
      (if fs.isEmpty then {}
      else walkFields (above ++ d.name ++ ".") found flat.deprecated fs ++
        ⟨[], (undeclared fs found).map (above ++ d.name ++ "." ++ ·)⟩)

def walkFields (above : String) (node : Option Value) (deprecated : Bool) :
    List Field → Reconciliation
  | [] => {}
  | f :: fs => walkField above node deprecated f ++ walkFields above node deprecated fs

end

/-- One level with everything beneath it; the level's own undeclared keys come last. -/
def walk (above : String) (node : Option Value) (deprecated : Bool) (fields : List Field) :
    Reconciliation :=
  walkFields above node deprecated fields ++ ⟨[], (undeclared fields node).map (above ++ ·)⟩

end Reconciliation

namespace Schema

def reconcile (fields : List Field) (sample : Value) : Reconciliation :=
  Reconciliation.walk "" (some sample) false fields

def check (fields : List Field) (sample : Value) : Except SchemaError (List FlatField) :=
  (reconcile fields sample).checked

end Schema

end ComponentDoc
