import ComponentDoc.Proofs.Mappings

set_option autoImplicit false

namespace ComponentDoc

open Value

def Value.memberUnless (condition : Bool) (name : String) (v : Value) : List (String × Value) :=
  if condition then [] else [(name, v)]

theorem Value.textKeyed_memberUnless (condition : Bool) (name : String) (v : Value) :
    textKeyed (memberUnless condition name v) = entryUnless condition name v := by
  cases condition <;> rfl

def Declaration.members (d : Declaration) (gs : List Field) : List (String × Value) :=
  [("name", .str d.name)] ++
  memberUnless (d.type == "") "type" (.str d.type) ++
  [("description", .str d.description),
    ("advanced", .bool d.advanced),
    ("deprecated", .bool d.deprecated),
    ("interpolation", .str d.interpolation.text)] ++
  memberUnless d.examples.isEmpty "examples" (.seq d.examples) ++
  memberUnless d.options.isEmpty "options" (.seq (d.options.map .str)) ++
  memberUnless gs.isEmpty "children" (.seq (gs.map Field.toValue))

def Component.members (c : Component) : List (String × Value) :=
  [("name", .str c.name), ("type", .str c.category), ("summary", .str c.summary),
    ("description", .str c.description), ("fields", .seq (c.fields.map Field.toValue))]

theorem Field.allToValues_eq_map (fs : List Field) : allToValues fs = fs.map toValue := by
  induction fs with
  | nil => rfl
  | cons f fs ih => rw [allToValues, ih, List.map_cons]

theorem Field.toValue_node (d : Declaration) (gs : List Field) :
    toValue ⟨d, gs⟩ = .map (textKeyed (d.members gs)) := by
  rw [toValue, allToValues_eq_map]
  simp [Declaration.entries, Declaration.members, textKeyed_memberUnless]

theorem Component.toValue_eq (c : Component) : c.toValue = .map (textKeyed c.members) := by
  rw [toValue, Field.allToValues_eq_map]
  rfl

theorem Declaration.members_names_nodup (d : Declaration) (gs : List Field) :
    ((d.members gs).map Prod.fst).Nodup := by
  have hsublist : ((d.members gs).map Prod.fst).Sublist ["name", "type", "description", "advanced",
      "deprecated", "interpolation", "examples", "options", "children"] := by
    have hunless : ∀ condition name v,
        ((memberUnless condition name v).map Prod.fst).Sublist [name] := by
      intro condition name v
      cases condition <;> simp [memberUnless]
    simp only [members, List.map_append]
    exact ((((((List.Sublist.refl _).append (hunless _ _ _)).append (List.Sublist.refl _)).append
      (hunless _ _ _)).append (hunless _ _ _)).append (hunless _ _ _))
  exact hsublist.nodup (by decide)

theorem Component.members_names_nodup (c : Component) : (c.members.map Prod.fst).Nodup := by
  simp only [members, List.map_cons, List.map_nil]
  decide

mutual

/-- A field whose example values have their keys rewritten as strings, at every level. -/
def Field.rekeyed : Field → Field
  | ⟨d, gs⟩ => ⟨{ d with examples := d.examples.map stringKeys }, Schema.rekeyed gs⟩

def Schema.rekeyed : List Field → List Field
  | [] => []
  | f :: fs => f.rekeyed :: Schema.rekeyed fs

end

def Component.rekeyed (c : Component) : Component := { c with fields := Schema.rekeyed c.fields }

theorem Schema.rekeyed_eq_map (fs : List Field) : rekeyed fs = fs.map Field.rekeyed := by
  induction fs with
  | nil => rfl
  | cons f fs ih => rw [rekeyed, ih, List.map_cons]

theorem Value.stringKeys_textKeyed {es : List (String × Value)} (h : (es.map Prod.fst).Nodup) :
    stringKeys (.map (textKeyed es)) = .map (textKeyed (es.map (fun e => (e.1, e.2.stringKeys)))) := by
  have hentries : stringKeysEntries (textKeyed es) =
      textKeyed (es.map (fun e => (e.1, e.2.stringKeys))) := by
    simp [stringKeysEntries_eq_map, textKeyed, stringKey, keyText]
  have hnames : (es.map (fun e => (e.1, e.2.stringKeys))).map Prod.fst = es.map Prod.fst := by
    rw [List.map_map]
    rfl
  rw [stringKeys, hentries, ofEntries_textKeyed (hnames ▸ h)]

theorem Value.map_memberUnless (condition : Bool) (name : String) (v : Value) :
    (memberUnless condition name v).map (fun e => (e.1, e.2.stringKeys)) =
      memberUnless condition name v.stringKeys := by
  cases condition <;> rfl

theorem Field.stringKeys_allToValues (fs : List Field) :
    (fs.map toValue).map stringKeys = (Schema.rekeyed fs).map toValue := by
  induction fs using Field.level_induction with
  | level fs ih =>
    rw [Schema.rekeyed_eq_map, List.map_map, List.map_map]
    refine List.map_congr_left ?_
    intro f hf
    obtain ⟨d, gs⟩ := f
    have hchildren := ih d gs hf
    have hoptions : (d.options.map Value.str).map stringKeys = d.options.map .str := by
      rw [List.map_map]
      rfl
    have hmembers : (d.members gs).map (fun e => (e.1, e.2.stringKeys)) =
        Declaration.members { d with examples := d.examples.map stringKeys } (Schema.rekeyed gs) := by
      simp only [Declaration.members, List.map_append, map_memberUnless, stringKeys,
        stringKeysItems_eq_map, hoptions, hchildren, List.isEmpty_map, Schema.rekeyed_eq_map,
        List.map_cons, List.map_nil]
    rw [Function.comp_apply, Function.comp_apply, toValue_node,
      stringKeys_textKeyed (d.members_names_nodup gs), hmembers, rekeyed, toValue_node]

theorem Component.stringKeys_toValue (c : Component) :
    c.toValue.stringKeys = c.rekeyed.toValue := by
  rw [toValue_eq, stringKeys_textKeyed c.members_names_nodup, toValue_eq]
  simp only [members, rekeyed, List.map_cons, List.map_nil, stringKeys, stringKeysItems_eq_map,
    Field.stringKeys_allToValues]

namespace Schema

variable {P : List (Value × Value) → Prop} {fs : List Field}

theorem everywhere_member {es : List (String × Value)} (h : Everywhere P (.map (textKeyed es)))
    {e : String × Value} (he : e ∈ es) : e.2.Everywhere P :=
  (everywhere_map.mp h).2 _ (List.mem_map_of_mem he)

theorem everywhere_examples (h : ∀ f ∈ fs, f.toValue.Everywhere P) :
    ∀ p ∈ places fs, ∀ v ∈ p.declaration.examples, v.Everywhere P := by
  intro p hp
  induction hp using places_induction with
  | top fs d gs hmem =>
    intro v hv
    have hnode := h _ hmem
    rw [Field.toValue_node] at hnode
    have hne : d.examples ≠ [] := List.ne_nil_of_mem hv
    have hmember : ("examples", .seq d.examples) ∈ d.members gs := by
      simp [Declaration.members, memberUnless, hne]
    exact everywhere_seq.mp (everywhere_member hnode hmember) v hv
  | under fs d gs q hmem hq ih =>
    have hnode := h _ hmem
    rw [Field.toValue_node] at hnode
    have hne : gs ≠ [] := by
      rintro rfl
      simp at hq
    have hmember : ("children", .seq (gs.map Field.toValue)) ∈ d.members gs := by
      simp [Declaration.members, memberUnless, hne]
    have hchildren := everywhere_seq.mp (everywhere_member hnode hmember)
    exact ih (by simpa using hchildren)

theorem rekeyed_eq_self (h : ∀ p ∈ places fs, ∀ v ∈ p.declaration.examples, v.stringKeys = v) :
    rekeyed fs = fs := by
  induction fs using Field.level_induction with
  | level fs ih =>
    have hfields : fs.map Field.rekeyed = fs.map id := by
      refine List.map_congr_left ?_
      intro f hf
      obtain ⟨d, gs⟩ := f
      have hexamples : d.examples.map stringKeys = d.examples.map id :=
        List.map_congr_left (h _ (top_mem_places hf))
      have hchildren : rekeyed gs = gs :=
        ih d gs hf (fun q hq => h (q.under d) (under_mem_places hf hq))
      rw [Field.rekeyed, hexamples, hchildren, List.map_id, id]
    rw [rekeyed_eq_map, hfields, List.map_id]

end Schema

theorem Component.everywhere_examples {P : List (Value × Value) → Prop} {c : Component}
    (h : c.toValue.Everywhere P) :
    ∀ p ∈ Schema.places c.fields, ∀ v ∈ p.declaration.examples, v.Everywhere P := by
  rw [toValue_eq] at h
  have hmember : ("fields", .seq (c.fields.map Field.toValue)) ∈ c.members := by simp [members]
  have hfields := everywhere_seq.mp (Schema.everywhere_member h hmember)
  exact Schema.everywhere_examples (by simpa using hfields)

theorem Component.rekeyed_eq_self {c : Component} (hd : c.toValue.Everywhere DistinctKeys)
    (hs : ∀ p ∈ Schema.places c.fields, ∀ v ∈ p.declaration.examples, v.Everywhere StringKeyed) :
    c.rekeyed = c := by
  have hfields : Schema.rekeyed c.fields = c.fields := by
    refine Schema.rekeyed_eq_self ?_
    intro p hp v hv
    exact stringKeys_eq_self (everywhere_examples hd p hp v hv)
      (fun es hes => (hs p hp v hv es hes).rewritten)
  rw [rekeyed, hfields]

end ComponentDoc
