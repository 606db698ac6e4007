import ComponentDoc.Proofs.Outcome

set_option autoImplicit false

namespace ComponentDoc

open Schema Reconciliation

namespace Schema

variable {d : Declaration} {found : Option Value}

theorem inferType_of_example {e : Value} (htype : d.type = "") (he : d.examples.head? = some e)
    (hkind : e.kind ≠ .null) (path : String) (found : Option Value) :
    ∃ t, e.typeName = some t ∧ inferType path d found = .ok t := by
  have hname : e.typeName ≠ none := fun h => hkind (Value.typeName_eq_none.mp h)
  obtain ⟨t, ht⟩ := Option.ne_none_iff_exists'.mp hname
  exact ⟨t, ht, by simp [inferType, htype, he, ht]⟩

theorem inferType_of_no_example
    (h : d.type = "" → ∀ e, d.examples.head? = some e → e.kind = .null) (path : String) :
    inferType path d found =
      match labelOf d found with
      | some t => .ok t
      | none => .error (.untyped path) := by
  by_cases htype : d.type = ""
  · have hexample : d.examples.head?.bind Value.typeName = none :=
      Option.bind_eq_none_iff.mpr (fun e he => Value.typeName_eq_none.mpr (h htype e he))
    cases hname : found.bind Value.typeName <;> simp [inferType, labelOf, htype, hexample, hname]
  · simp [inferType, labelOf, htype]

end Schema

/-- The label of a flattened field agrees with the type inferred from the value at its path. -/
structure FlatField.LabelAgrees (v : Value) (f : FlatField) : Prop where
  /-- Without a declared type the label is that of the value, none where it is absent or null. -/
  observed : f.declaration.type = "" → f.label = (v.lookup f.path).bind Value.typeName
  /-- Without a declared type, a first example that is not null overrides the label. -/
  exemplified : f.declaration.type = "" → ∀ e, f.declaration.examples.head? = some e →
    e.kind ≠ .null → ∃ t, e.typeName = some t ∧
      inferType f.path f.declaration (v.lookup f.path) = .ok t
  /-- In all other cases the label is what is inferred. -/
  labelled : (f.declaration.type = "" → ∀ e, f.declaration.examples.head? = some e →
    e.kind = .null) → ∀ t, inferType f.path f.declaration (v.lookup f.path) = .ok t ↔
      f.label = some t
  /-- Nothing can be inferred only where there is no label. -/
  uninferred : ∀ e, inferType f.path f.declaration (v.lookup f.path) = .error e → f.label = none

namespace FlatField

theorem labelAgrees_of_label {v : Value} {f : FlatField}
    (h : f.label = labelOf f.declaration (v.lookup f.path)) : f.LabelAgrees v where
  observed := by
    intro htype
    rw [h, labelOf, if_pos htype]
  exemplified := fun htype _ he hkind => inferType_of_example htype he hkind _ _
  labelled := by
    intro hexample t
    rw [inferType_of_no_example hexample, ← h]
    cases f.label <;> simp
  uninferred := by
    intro error herror
    have hexample : f.declaration.type = "" → ∀ e, f.declaration.examples.head? = some e →
        e.kind = .null := by
      intro htype e he
      by_contra hkind
      obtain ⟨t, _, hok⟩ := inferType_of_example htype he hkind f.path (v.lookup f.path)
      simp [hok] at herror
    rw [inferType_of_no_example hexample, ← h] at herror
    cases hlabel : f.label with
    | none => rfl
    | some t => simp [hlabel] at herror

end FlatField

namespace Schema

theorem label_eq_labelOf_lookup {fs : List Field} (hn : WellNamed fs) {v : Value} {t : Tiers}
    (hs : Tiers.split fs v = .ok t) {f : FlatField} (hf : f ∈ (reconcile fs v).fields)
    (hshown : f.declaration.deprecated = false) :
    f.label = labelOf f.declaration (v.lookup f.path) := by
  rw [reconcile_fields] at hf
  obtain ⟨p, hp, rfl⟩ := List.mem_map.mp hf
  have hlive : p.isLive = true := by simpa [Place.flat] using hshown
  have hfits := (Tiers.split_eq_ok (children_ne_nil_of_mem hp) hn.distinct hs).1
  have hpath : (p.flat v).path = p.path := rfl
  rw [hpath, lookup_path hn hfits hp hlive]
  rfl

/-- Without lint errors and on an example that can be split, every field that is not deprecated has
a label that agrees with the type inferred for it. -/
theorem reconcile_labels_agree {fs : List Field} (hl : (lintFields "" fs).errors = []) {v : Value}
    {t : Tiers} (hs : Tiers.split fs v = .ok t) :
    ∀ f ∈ (reconcile fs v).fields, f.declaration.deprecated = false → f.LabelAgrees v := by
  intro f hf hshown
  have hn : WellNamed fs := (lintFields_errors_eq_nil.mp hl).toWellNamed
  exact FlatField.labelAgrees_of_label (label_eq_labelOf_lookup hn hs hf hshown)

def gaugeFields : List Field :=
  [⟨{ name := "source" }, [⟨{ name := "0", examples := [.str "low"] }, []⟩,
      ⟨{ name := "rate", examples := [.null] }, []⟩, ⟨{ name := "size", type := "int64" }, []⟩]⟩,
    .common "mode" "", .deprecated "legacy"]

def gaugeSample : Value :=
  .map [(.str "source", .tagged "gauge" (.map [(.int 0, .bool true),
      (.str "rate", .seq [.int 1]), (.str "size", .str "large")])),
    (.str "mode", .null), (.str "legacy", .int 5)]

theorem reconcile_labels_agree_gauge :
    (lintFields "" gaugeFields).errors = [] ∧ (Tiers.split gaugeFields gaugeSample).isOk = true ∧
      ((reconcile gaugeFields gaugeSample).fields.filter (fun f => !f.declaration.deprecated)).map
        (fun f => (f.path, f.label)) =
      [("source", some "object"), ("source.0", some "bool"), ("source.rate", some "array"),
        ("source.size", some "number"), ("mode", none)] ∧
      ∀ f ∈ (reconcile gaugeFields gaugeSample).fields, f.declaration.deprecated = false →
        f.LabelAgrees gaugeSample := by
  have hl : (lintFields "" gaugeFields).errors = [] := by decide +kernel
  obtain ⟨t, ht⟩ : ∃ t, Tiers.split gaugeFields gaugeSample = .ok t := ⟨_, rfl⟩
  have hlabels := reconcile_labels_agree hl ht
  rw [ht]
  exact ⟨hl, rfl, by decide +kernel, hlabels⟩

end Schema

end ComponentDoc
