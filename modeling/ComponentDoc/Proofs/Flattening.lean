import ComponentDoc.Proofs.Linting
import ComponentDoc.Reconciliation

set_option autoImplicit false

namespace ComponentDoc

open Schema Reconciliation

namespace Place

def flatBelow (above : String) (node : Option Value) (deprecated : Bool) (p : Place) : FlatField where
  path := above ++ p.path
  declaration := { p.declaration with deprecated := !p.isLive || deprecated }
  label := labelOf p.declaration (node.bind (fun v => p.found v))

/-- The flattened field of a place. It counts as deprecated from the first deprecated declaration on
the way down. -/
def flat (v : Value) (p : Place) : FlatField where
  path := p.path
  declaration := { p.declaration with deprecated := !p.isLive }
  label := labelOf p.declaration (p.found v)

theorem flatBelow_root (v : Value) (p : Place) : p.flatBelow "" (some v) false = p.flat v := by
  simp [flatBelow, flat]

theorem flatBelow_top (above : String) (node : Option Value) (deprecated : Bool) (d : Declaration)
    (gs : List Field) :
    (top d gs).flatBelow above node deprecated =
      ⟨above ++ d.name, { d with deprecated := d.deprecated || deprecated },
        labelOf d (node.bind (·.getKey d.name))⟩ := by
  simp [flatBelow]

theorem flatBelow_under (above : String) (node : Option Value) (deprecated : Bool) (d : Declaration)
    (p : Place) :
    (p.under d).flatBelow above node deprecated =
      p.flatBelow (above ++ d.name ++ ".") (node.bind (·.getKey d.name))
        (d.deprecated || deprecated) := by
  have hdep : (d.deprecated || !p.isLive || deprecated) =
      (!p.isLive || (d.deprecated || deprecated)) := by
    cases d.deprecated <;> cases p.isLive <;> cases deprecated <;> rfl
  simp [flatBelow, hdep, String.append_assoc, Option.bind_assoc]

end Place

namespace Reconciliation

@[simp] theorem fields_append (r s : Reconciliation) : (r ++ s).fields = r.fields ++ s.fields := rfl

@[simp] theorem missing_append (r s : Reconciliation) :
    (r ++ s).missing = r.missing ++ s.missing := rfl

section

variable (above : String) (node : Option Value) (deprecated : Bool) (d : Declaration)
  (gs fs : List Field)

theorem walkFields_cons_fields :
    (walkFields above node deprecated (⟨d, gs⟩ :: fs)).fields =
      (Place.top d gs).flatBelow above node deprecated ::
        ((walkFields (above ++ d.name ++ ".") (node.bind (·.getKey d.name))
            (d.deprecated || deprecated) gs).fields ++
          (walkFields above node deprecated fs).fields) := by
  rw [walkFields, walkField, Place.flatBelow_top]
  cases gs <;> simp [walkFields]

theorem walkFields_cons_missing :
    (walkFields above node deprecated (⟨d, gs⟩ :: fs)).missing =
      (if gs.isEmpty then [] else
        (walk (above ++ d.name ++ ".") (node.bind (·.getKey d.name)) (d.deprecated || deprecated)
          gs).missing) ++ (walkFields above node deprecated fs).missing := by
  rw [walkFields, walkField]
  cases gs <;> simp [walk]

end

theorem walkFields_fields (above : String) (node : Option Value) (deprecated : Bool)
    (fs : List Field) :
    (walkFields above node deprecated fs).fields =
      (places fs).map (Place.flatBelow above node deprecated) := by
  induction fs using Field.forest generalizing above node deprecated with
  | nil => rfl
  | cons d gs fs ihg ihf =>
    have hunder : ((places gs).map (Place.under d)).map (Place.flatBelow above node deprecated) =
        (places gs).map (Place.flatBelow (above ++ d.name ++ ".") (node.bind (·.getKey d.name))
          (d.deprecated || deprecated)) := by
      rw [List.map_map]
      exact List.map_congr_left (fun q _ => Place.flatBelow_under above node deprecated d q)
    rw [walkFields_cons_fields, ihg, ihf, places_cons, List.map_cons, List.map_append, hunder]

theorem walkFields_missing_eq_nil {above : String} {node : Option Value} {deprecated : Bool}
    {fs : List Field} :
    (walkFields above node deprecated fs).missing = [] ↔
      ∀ p ∈ places fs, p.hasChildren = true →
        undeclared p.children (node.bind (fun v => p.found v)) = [] := by
  induction fs using Field.forest generalizing above node deprecated with
  | nil => simp [walkFields]
  | cons d gs fs ihg ihf =>
    rw [walkFields_cons_missing, List.append_eq_nil_iff, ihf, places_cons, List.forall_mem_cons,
      List.forall_mem_append, List.forall_mem_map, and_assoc.symm]
    refine and_congr_left' ?_
    cases gs with
    | nil => simp [Place.hasChildren]
    | cons g gs =>
      simp [walk, ihg, Place.hasChildren, Option.bind_assoc, and_comm]

end Reconciliation

namespace Schema

theorem reconcile_fields (fs : List Field) (v : Value) :
    (reconcile fs v).fields = (places fs).map (Place.flat v) := by
  have hroot : (places fs).map (Place.flatBelow "" (some v) false) = (places fs).map (Place.flat v) :=
    List.map_congr_left (fun p _ => Place.flatBelow_root v p)
  simp [reconcile, walk, walkFields_fields, hroot]

/-- Under a way to look up names, every key of the value, and of each value that a field with children
holds, is the name of a field declared there. -/
structure Covers (get : Value → String → Option Value) (fs : List Field) (v : Value) : Prop where
  root : ∀ k ∈ v.childKeys, k ∈ fs.map Field.name
  below : ∀ p ∈ places fs, p.hasChildren = true → ∀ w, p.names.foldlM get v = some w →
    ∀ k ∈ w.childKeys, k ∈ p.children.map Field.name

theorem Covers.child {get : Value → String → Option Value} {d : Declaration} {gs fs : List Field}
    {v w : Value} (h : Covers get fs v) (hmem : ⟨d, gs⟩ ∈ fs) (hne : gs ≠ [])
    (hw : get v d.name = some w) : Covers get gs w := by
  constructor
  · exact h.below _ (top_mem_places hmem) (by simpa [Place.hasChildren]) w (by simpa using hw)
  · intro q hq hc u hu
    refine h.below _ (under_mem_places hmem hq) hc u ?_
    rw [Place.names_under, List.foldlM_cons, hw]
    exact hu

theorem undeclared_eq_nil {fs : List Field} {node : Option Value} :
    undeclared fs node = [] ↔ ∀ w, node = some w → ∀ k ∈ w.childKeys, k ∈ fs.map Field.name := by
  cases node <;> simp [undeclared]

theorem reconcile_isConsistent {fs : List Field} {v : Value} :
    (reconcile fs v).isConsistent = true ↔ Covers Value.getKey fs v := by
  have hmissing : (reconcile fs v).isConsistent = true ↔
      (∀ p ∈ places fs, p.hasChildren = true → undeclared p.children (p.found v) = []) ∧
        undeclared fs (some v) = [] := by
    simp [isConsistent, reconcile, walk, walkFields_missing_eq_nil]
  rw [hmissing]
  constructor
  · intro h
    obtain ⟨hbelow, hroot⟩ := h
    exact ⟨undeclared_eq_nil.mp hroot v rfl, fun p hp hc => undeclared_eq_nil.mp (hbelow p hp hc)⟩
  · intro h
    obtain ⟨hroot, hbelow⟩ := h
    refine ⟨fun p hp hc => undeclared_eq_nil.mpr (hbelow p hp hc), undeclared_eq_nil.mpr ?_⟩
    intro w hw
    cases hw
    exact hroot

theorem reconcile_missing_eq_nil {fs : List Field} {v : Value} :
    (reconcile fs v).missing = [] ↔ Covers Value.getKey fs v := by
  rw [← reconcile_isConsistent, isConsistent, List.isEmpty_iff]

end Schema

end ComponentDoc
