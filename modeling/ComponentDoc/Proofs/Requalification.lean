import ComponentDoc.Proofs.Flattening

set_option autoImplicit false

namespace ComponentDoc

open Schema

/-- A flattened field seen from further up, where its path is longer and what lies above it may be
deprecated. -/
def FlatField.requalified (above : String) (deprecated : Bool) (f : FlatField) : FlatField :=
  { f with
    path := above ++ f.path
    declaration := { f.declaration with deprecated := f.declaration.deprecated || deprecated } }

namespace Reconciliation

/-- The same fields and missing paths, in their order, seen from further up. -/
def requalified (above : String) (deprecated : Bool) (r : Reconciliation) : Reconciliation :=
  ⟨r.fields.map (FlatField.requalified above deprecated), r.missing.map (above ++ ·)⟩

def contribution (node : Option Value) : Field → Reconciliation
  | ⟨d, gs⟩ =>
    let found := node.bind (·.getKey d.name)
    ⟨[⟨d.name, d, labelOf d found⟩], []⟩ ++
      (if gs.isEmpty then {}
      else (reconcile gs (found.getD .null)).requalified (d.name ++ ".") d.deprecated)

/-- A level as its fields make it, one after the other; its own undeclared keys come last. -/
def level (node : Option Value) (fs : List Field) : Reconciliation where
  fields := fs.flatMap (fun f => (contribution node f).fields)
  missing := fs.flatMap (fun f => (contribution node f).missing) ++ undeclared fs node

theorem append_missing (r : Reconciliation) (paths : List String) :
    r ++ ⟨[], paths⟩ = { r with missing := r.missing ++ paths } := by
  obtain ⟨fs, ms⟩ := r
  exact congrArg (Reconciliation.mk · (ms ++ paths)) (List.append_nil fs)

theorem requalified_append (above : String) (deprecated : Bool) (r s : Reconciliation) :
    (r ++ s).requalified above deprecated =
      r.requalified above deprecated ++ s.requalified above deprecated := by
  rw [requalified, fields_append, missing_append, List.map_append, List.map_append]
  rfl

theorem requalified_requalified (above between : String) (outer inner : Bool) (r : Reconciliation) :
    (r.requalified between inner).requalified above outer =
      r.requalified (above ++ between) (inner || outer) := by
  simp [requalified, FlatField.requalified, Function.comp_def, String.append_assoc, Bool.or_assoc]

section

variable (above : String) (node : Option Value) (deprecated : Bool)

theorem walkField_node (d : Declaration) (gs : List Field) :
    walkField above node deprecated ⟨d, gs⟩ =
      ⟨[⟨above ++ d.name, { d with deprecated := d.deprecated || deprecated },
          labelOf d (node.bind (·.getKey d.name))⟩], []⟩ ++
        (if gs.isEmpty then {}
        else walk (above ++ d.name ++ ".") (node.bind (·.getKey d.name))
          (d.deprecated || deprecated) gs) := by
  rw [walkField]
  rfl

theorem walk_requalified_of {fs : List Field}
    (h : walkFields above node deprecated fs =
      (walkFields "" node false fs).requalified above deprecated) :
    walk above node deprecated fs = (walk "" node false fs).requalified above deprecated := by
  rw [walk, walk, h, requalified_append]
  simp [requalified]

theorem walkField_requalified {d : Declaration} {gs : List Field}
    (hbeneath : ∀ above node deprecated,
      walk above node deprecated gs = (walk "" node false gs).requalified above deprecated) :
    walkField above node deprecated ⟨d, gs⟩ =
      (walkField "" node false ⟨d, gs⟩).requalified above deprecated := by
  rw [walkField_node, walkField_node, requalified_append]
  congr 1
  · simp [requalified, FlatField.requalified]
  · cases gs.isEmpty with
    | true => rfl
    | false =>
      rw [if_neg Bool.false_ne_true, if_neg Bool.false_ne_true, hbeneath, hbeneath ("" ++ d.name ++ "."),
        requalified_requalified]
      simp [String.append_assoc]

theorem walkFields_requalified (fs : List Field) :
    walkFields above node deprecated fs =
      (walkFields "" node false fs).requalified above deprecated := by
  -- Text, value and flag all change on the way down, so the induction holds for any of them.
  induction fs using Field.forest generalizing above node deprecated with
  | nil => rfl
  | cons d gs fs ihg ihf =>
    have hbeneath (above : String) (node : Option Value) (deprecated : Bool) :
        walk above node deprecated gs = (walk "" node false gs).requalified above deprecated :=
      walk_requalified_of above node deprecated (ihg above node deprecated)
    rw [walkFields, walkFields, requalified_append, walkField_requalified above node deprecated hbeneath,
      ihf]

end

theorem walk_none (above : String) (deprecated : Bool) (fs : List Field) :
    walk above none deprecated fs = walk above (some .null) deprecated fs := by
  have hfields : walkFields above none deprecated fs = walkFields above (some .null) deprecated fs := by
    induction fs with
    | nil => rfl
    | cons f fs ih =>
      obtain ⟨d, gs⟩ := f
      rw [walkFields, walkFields, walkField_node, walkField_node, ih]
      rfl
  rw [walk, walk, hfields]
  rfl

theorem walk_root (node : Option Value) (fs : List Field) :
    walk "" node false fs = reconcile fs (node.getD .null) := by
  cases node with
  | none => exact walk_none "" false fs
  | some v => rfl

theorem walkField_root (node : Option Value) (f : Field) :
    walkField "" node false f = contribution node f := by
  obtain ⟨d, gs⟩ := f
  rw [walkField_node, walk_requalified_of _ _ _ (walkFields_requalified _ _ _ gs), walk_root]
  simp [contribution]

theorem walk_level (node : Option Value) (fs : List Field) :
    walk "" node false fs = level node fs := by
  have hfields : walkFields "" node false fs =
      ⟨fs.flatMap (fun f => (contribution node f).fields),
        fs.flatMap (fun f => (contribution node f).missing)⟩ := by
    induction fs with
    | nil => rfl
    | cons f fs ih =>
      rw [walkFields, walkField_root, ih]
      rfl
  rw [walk, hfields, append_missing, level]
  simp

/-- The walk depends on the text above and on the flag only through what it writes: it is the walk on its
own, requalified, with the same labels and as many fields and missing paths. On its own a level is made of
its fields, each with the reconciliation of what is beneath it, requalified by its name. -/
theorem walk_requalified (above : String) (node : Option Value) (deprecated : Bool) (fs : List Field) :
    walk above node deprecated fs = (walk "" node false fs).requalified above deprecated ∧
      (walk above node deprecated fs).fields.map FlatField.label =
        (walk "" node false fs).fields.map FlatField.label ∧
      (walk above node deprecated fs).fields.length = (walk "" node false fs).fields.length ∧
      (walk above node deprecated fs).missing.length = (walk "" node false fs).missing.length ∧
      walk "" node false fs = level node fs := by
  have hwalk : walk above node deprecated fs =
      (walk "" node false fs).requalified above deprecated :=
    walk_requalified_of above node deprecated (walkFields_requalified above node deprecated fs)
  refine ⟨hwalk, ?_, ?_, ?_, walk_level node fs⟩
  · rw [hwalk, requalified, List.map_map]
    rfl
  · rw [hwalk, requalified, List.length_map]
  · rw [hwalk, requalified, List.length_map]

end Reconciliation

end ComponentDoc
