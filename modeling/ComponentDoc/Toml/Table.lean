/-!
The tables of a TOML document. A table is defined once: by its header, by the headers of tables beneath
it, or by dotted keys, and a way of definition that does not go with an earlier one is refused.
-/

set_option autoImplicit false

namespace ComponentDoc.Toml

/-- What stands under a key. Of values only strings and truth values are told apart; of a list of
tables, the last one can still grow. -/
inductive Item where
  | string (s : String)
  | bool (b : Bool)
  | other
  | table (implied dotted : Bool) (entries : List (String × Item))
  | tables (last : List (String × Item))
  deriving Inhabited

abbrev Entries := List (String × Item)

namespace Entries

def put (key : String) (item : Item) : Entries → Entries
  | [] => [(key, item)]
  | (k, i) :: es => if k = key then (k, item) :: es else (k, i) :: put key item es

/-- Stores an item under a key, which must be new. A table made by dotted keys is filled by them
alone, and any other table by single keys alone. -/
def addHere (dotted viaDots : Bool) (key : String) (item : Item) (es : Entries) : Option Entries :=
  if dotted != viaDots || (es.lookup key).isSome then none else some (es.put key item)

def add (viaDots dotted : Bool) : List String → String → Item → Entries → Option Entries
  | [], key, item, es => addHere dotted viaDots key item es
  | p :: ps, key, item, es =>
    match es.lookup p with
    | none => (add true true ps key item []).map (fun sub => es.put p (.table true true sub))
    | some (.table implied d sub) =>
      if implied then (add true d ps key item sub).map (fun sub => es.put p (.table implied d sub))
      else none
    | some (.tables last) =>
      (add true false ps key item last).map (fun sub => es.put p (.tables sub))
    | some _ => none

def within (change : Bool → Entries → Option Entries) (dotted : Bool) :
    List String → Entries → Option Entries
  | [], es => change dotted es
  | p :: ps, es =>
    match es.lookup p with
    | none => (within change false ps []).map (fun sub => es.put p (.table true false sub))
    | some (.table implied d sub) =>
      (within change d ps sub).map (fun sub => es.put p (.table implied d sub))
    | some (.tables last) => (within change false ps last).map (fun sub => es.put p (.tables sub))
    | some _ => none

def openTable (key : String) (_ : Bool) (es : Entries) : Option Entries :=
  match es.lookup key with
  | none => some (es.put key (.table false false []))
  | some (.table true false sub) => some (es.put key (.table false false sub))
  | some _ => none

def openTables (key : String) (_ : Bool) (es : Entries) : Option Entries :=
  match es.lookup key with
  | none => some (es.put key (.tables []))
  | some (.tables _) => some (es.put key (.tables []))
  | some _ => none

end Entries

end ComponentDoc.Toml
