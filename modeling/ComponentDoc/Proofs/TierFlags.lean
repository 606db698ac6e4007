import ComponentDoc.Proofs.Outcome
import ComponentDoc.Proofs.Reduction

set_option autoImplicit false

namespace ComponentDoc

def Declaration.untiered (d : Declaration) : Declaration := { d with advanced := false }

mutual

/-- A field none of whose declarations is advanced any more. -/
def Field.untiered : Field → Field
  | ⟨d, gs⟩ => ⟨d.untiered, Schema.untiered gs⟩

def Schema.untiered : List Field → List Field
  | [] => []
  | f :: fs => f.untiered :: Schema.untiered fs

end

def Component.untiered (c : Component) : Component := { c with fields := Schema.untiered c.fields }

def FlatField.untiered (f : FlatField) : FlatField :=
  { f with declaration := f.declaration.untiered }

def Reconciliation.untiered (r : Reconciliation) : Reconciliation :=
  { r with fields := r.fields.map FlatField.untiered }

def FieldEntry.untiered (e : FieldEntry) : FieldEntry := { e with advanced := false }

/-- A document without its common tier and without the flags of its entries. -/
def Context.untiered (context : Context) : Context :=
  { context with fields := context.fields.map FieldEntry.untiered, commonConfig := "" }

open Schema Tiers

namespace Schema

theorem untiered_cons (d : Declaration) (gs fs : List Field) :
    untiered (⟨d, gs⟩ :: fs) = ⟨d.untiered, untiered gs⟩ :: untiered fs := rfl

@[simp] theorem isEmpty_untiered (fs : List Field) : (untiered fs).isEmpty = fs.isEmpty := by
  cases fs <;> rfl

theorem names_untiered (fs : List Field) :
    (untiered fs).map Field.name = fs.map Field.name := by
  induction fs with
  | nil => rfl
  | cons f fs ih =>
    obtain ⟨d, gs⟩ := f
    rw [untiered_cons, List.map_cons, List.map_cons, ih]
    rfl

end Schema

namespace Tiers

theorem extractFields_untiered (above : String) (v : Value) (fs : List Field) :
    extractFields shownAdvanced above v (untiered fs) = extractFields shownAdvanced above v fs := by
  induction fs using Field.forest generalizing above v with
  | nil => rfl
  | cons d gs fs ihg ihf =>
    have hshown : shownAdvanced d.untiered = shownAdvanced d := rfl
    have hname : d.untiered.name = d.name := rfl
    rw [untiered_cons, extractFields, extractFields, extractField, extractField, ihf, hshown, hname,
      isEmpty_untiered]
    simp only [ihg]

theorem advancedOf_untiered (fs : List Field) (v : Value) :
    advancedOf (untiered fs) v = advancedOf fs v := by
  rw [advancedOf, advancedOf, extract, extract, extractFields_untiered]

theorem split_untiered (fs : List Field) (v : Value) :
    (split (untiered fs) v).map Tiers.advanced = (split fs v).map Tiers.advanced := by
  cases fs with
  | nil => rfl
  | cons f fs =>
    obtain ⟨d, gs⟩ := f
    rw [split_eq_advancedOf (List.cons_ne_nil _ fs), split_eq_advancedOf (by simp [untiered_cons]),
      advancedOf_untiered]
    cases advancedOf (⟨d, gs⟩ :: fs) v <;> rfl

end Tiers

namespace Reconciliation

theorem untiered_append (r s : Reconciliation) : (r ++ s).untiered = r.untiered ++ s.untiered := by
  rw [untiered, fields_append, List.map_append]
  rfl

theorem undeclared_untiered (fs : List Field) (node : Option Value) :
    undeclared (Schema.untiered fs) node = undeclared fs node := by
  rw [undeclared, undeclared, names_untiered]

theorem walkFields_untiered (above : String) (node : Option Value) (deprecated : Bool)
    (fs : List Field) :
    walkFields above node deprecated (Schema.untiered fs) =
      (walkFields above node deprecated fs).untiered := by
  induction fs using Field.forest generalizing above node deprecated with
  | nil => rfl
  | cons d gs fs ihg ihf =>
    rw [untiered_cons, walkFields, walkFields, walkField, walkField, ihf, untiered_append,
      untiered_append, isEmpty_untiered]
    dsimp only
    rw [ihg, undeclared_untiered]
    cases gs.isEmpty with
    | true => rfl
    | false =>
      simp only [Bool.false_eq_true, if_false]
      rw [untiered_append]
      rfl

theorem checked_untiered (r : Reconciliation) :
    r.untiered.checked = r.checked.map (List.map FlatField.untiered) := by
  cases hc : r.isConsistent with
  | true =>
    have hc' : r.untiered.isConsistent = true := hc
    rw [checked, checked, hc', hc]
    rfl
  | false =>
    have hc' : r.untiered.isConsistent = false := hc
    rw [checked, checked, hc', hc]
    rfl

end Reconciliation

theorem Schema.reconcile_untiered (fs : List Field) (v : Value) :
    reconcile (untiered fs) v = (reconcile fs v).untiered := by
  rw [reconcile, reconcile, Reconciliation.walk, Reconciliation.walk,
    Reconciliation.walkFields_untiered, Reconciliation.undeclared_untiered,
    Reconciliation.untiered_append]
  rfl

namespace Context

theorem flatFields_untiered (c : Component) (full : Value) :
    flatFields c.untiered full = (flatFields c full).map (List.map FlatField.untiered) := by
  have hschema : c.untiered.hasSchema = c.hasSchema := by
    simp [Component.hasSchema, Component.untiered]
  have hcheck : check c.untiered.fields full =
      (check c.fields full).map (List.map FlatField.untiered) := by
    rw [check, check, Component.untiered, reconcile_untiered, Reconciliation.checked_untiered]
  rw [flatFields, flatFields, hschema, hcheck]
  cases c.hasSchema <;> rfl

theorem entry_untiered (config : Config) (full : Value) (f : FlatField) :
    entry config full f.untiered = (entry config full f).map FieldEntry.untiered := by
  have hpath : f.untiered.path = f.path := rfl
  have hinfer : ∀ found, inferType f.path f.untiered.declaration found =
      inferType f.path f.declaration found := fun _ => rfl
  have hexamples : f.untiered.declaration.examples = f.declaration.examples := rfl
  unfold entry
  rw [hpath]
  cases full.lookup f.path with
  | none => rfl
  | some found =>
    simp only [hinfer, hexamples]
    cases inferType f.path f.declaration (some found) with
    | error e => rfl
    | ok type => cases writeExamples f.path f.declaration.examples <;> rfl

theorem entries_untiered (config : Config) (full : Value) (fs : List FlatField) :
    entries config full (fs.map FlatField.untiered) =
      (entries config full fs).map (List.map FieldEntry.untiered) := by
  induction fs with
  | nil => rfl
  | cons f fs ih =>
    rw [List.map_cons, entries, entries, entry_untiered, ih]
    cases entry config full f with
    | error e => rfl
    | ok e => cases entries config full fs <;> rfl

def documented (config : Config) (c : Component) (full : Value) :
    Except SchemaError (List FieldEntry) := do
  let flat ← flatFields c full
  entries config full (flat.filter (fun f => !f.declaration.deprecated))

theorem build_eq_documented (config : Config) (c : Component) (sample : Value) :
    build config c sample = (do
      let full ← sample.normalize
      let blocks ← ExampleBlocks.ofExample c (root config c) full
      let fields ← documented config c full
      return {
        name := c.name
        category := c.category
        summary := c.summary
        description := trimNewline c.description
        sourceHint := hintFor config c
        fields
        commonConfig := blocks.common
        advancedConfig := blocks.advanced }) := by
  simp only [build, documented, bind_assoc]

theorem documented_untiered (config : Config) (c : Component) (full : Value) :
    documented config c.untiered full =
      (documented config c full).map (List.map FieldEntry.untiered) := by
  rw [documented, documented, flatFields_untiered]
  cases flatFields c full with
  | error e => rfl
  | ok flat =>
    have hfilter : (flat.map FlatField.untiered).filter (fun f => !f.declaration.deprecated) =
        (flat.filter (fun f => !f.declaration.deprecated)).map FlatField.untiered := by
      rw [List.filter_map]
      rfl
    change entries config full ((flat.map FlatField.untiered).filter _) = _
    rw [hfilter, entries_untiered]
    rfl

theorem ofExample_advanced {c : Component} {full : Value} (root : String)
    (hw : ∀ t, Tiers.split c.fields full = .ok t → Yaml.Writable t.common) :
    (ExampleBlocks.ofExample c root full).map ExampleBlocks.advanced =
      (Tiers.split c.untiered.fields full).map Tiers.advanced >>= fun advanced =>
        Yaml.write (ExampleBlocks.wrapped c.name root advanced) := by
  rw [Component.untiered, split_untiered, ExampleBlocks.ofExample]
  cases hs : Tiers.split c.fields full with
  | error e => rfl
  | ok t =>
    obtain ⟨common, hcommon⟩ := (hw t hs).wrapped c.name root
    cases ha : Yaml.write (ExampleBlocks.wrapped c.name root t.advanced) with
    | error e => simp [bind, Except.bind, Except.map, ha]
    | ok advanced =>
      cases hc : c.hasSchema <;>
        simp [bind, Except.bind, pure, Except.pure, Except.map, ha, hcommon]

/-- A document made from its advanced tier alone. -/
def ofAdvanced (config : Config) (c : Component) (advanced : Value) (full : Value) :
    Except SchemaError Context := do
  let advancedConfig ← Yaml.write (ExampleBlocks.wrapped c.name (root config c) advanced)
  let fields ← documented config c full
  return {
    name := c.name
    category := c.category
    summary := c.summary
    description := trimNewline c.description
    sourceHint := hintFor config c
    fields
    commonConfig := ""
    advancedConfig }

theorem build_map_untiered {config : Config} {c : Component} {sample : Value}
    (hw : ∀ full t, sample.normalize = .ok full → Tiers.split c.fields full = .ok t →
      Yaml.Writable t.common) :
    (build config c sample).map Context.untiered =
      sample.normalize >>= fun full =>
        (Tiers.split c.untiered.fields full).map Tiers.advanced >>= fun advanced =>
          ofAdvanced config c.untiered advanced full := by
  rw [build_eq_documented]
  cases hn : sample.normalize with
  | error e => rfl
  | ok full =>
    have hblocks := ofExample_advanced (root config c) (fun t => hw full t hn)
    have hname : c.untiered.name = c.name := rfl
    have hroot : root config c.untiered = root config c := rfl
    simp only [ok_bind, ofAdvanced, hname, hroot]
    rw [← bind_assoc, ← hblocks, documented_untiered]
    cases ExampleBlocks.ofExample c (root config c) full with
    | error e => rfl
    | ok blocks => cases documented config c full <;> rfl

/-- Schemas that differ in their advanced flags alone make documents that differ in the common tier and
in the flags of the entries alone, or fail alike. -/
theorem build_untiered (config : Config) {c₁ c₂ : Component} {sample : Value}
    (hc : c₁.untiered = c₂.untiered)
    (hw₁ : ∀ full t, sample.normalize = .ok full → Tiers.split c₁.fields full = .ok t →
      Yaml.Writable t.common)
    (hw₂ : ∀ full t, sample.normalize = .ok full → Tiers.split c₂.fields full = .ok t →
      Yaml.Writable t.common) :
    (∃ e, build config c₁ sample = .error e ∧ build config c₂ sample = .error e) ∨
      ∃ context₁ context₂, build config c₁ sample = .ok context₁ ∧
        build config c₂ sample = .ok context₂ ∧ context₁.untiered = context₂.untiered ∧
        context₁.advancedConfig = context₂.advancedConfig := by
  have hmap : (build config c₁ sample).map Context.untiered =
      (build config c₂ sample).map Context.untiered := by
    rw [build_map_untiered hw₁, build_map_untiered hw₂, hc]
  cases h₁ : build config c₁ sample with
  | error e =>
    cases h₂ : build config c₂ sample with
    | error e' =>
      rw [h₁, h₂] at hmap
      cases hmap
      exact .inl ⟨e, rfl, rfl⟩
    | ok context₂ => simp [h₁, h₂, Except.map] at hmap
  | ok context₁ =>
    cases h₂ : build config c₂ sample with
    | error e => simp [h₁, h₂, Except.map] at hmap
    | ok context₂ =>
      rw [h₁, h₂] at hmap
      have huntiered : context₁.untiered = context₂.untiered := Except.ok.inj hmap
      have hadvanced : context₁.untiered.advancedConfig = context₂.untiered.advancedConfig := by
        rw [huntiered]
      exact .inr ⟨context₁, context₂, rfl, rfl, huntiered, hadvanced⟩

def twofold (advanced : Bool) : Component where
  name := "reader"
  category := "sources"
  fields := [⟨{ name := "source", advanced }, [.common "path" ""]⟩,
    ⟨{ name := "source" }, [⟨{ name := "path", advanced }, []⟩]⟩]

theorem build_untiered_twofold :
    ∃ context₁ context₂, build {} (twofold false) readerSample = .ok context₁ ∧
      build {} (twofold true) readerSample = .ok context₂ ∧
      context₁.untiered = context₂.untiered ∧
      context₁.advancedConfig = context₂.advancedConfig := by
  have hw : ∀ advanced full t, readerSample.normalize = .ok full →
      Tiers.split (twofold advanced).fields full = .ok t → Yaml.Writable t.common := by
    intro advanced full t hn ht
    cases normalize_readerSample.symm.trans hn
    cases advanced with
    | false =>
      cases ht
      exact Yaml.writable_iff.mpr (by decide +kernel)
    | true =>
      cases ht
      exact Yaml.writable_iff.mpr (by decide +kernel)
  have hbuild : ∃ context, build {} (twofold false) readerSample = .ok context := by
    apply errorOf_eq_none
    rw [errorOf_build_eq {} (twofold false) normalize_readerSample]
    decide +kernel
  have hc : (twofold false).untiered = (twofold true).untiered := rfl
  rcases build_untiered {} hc (hw false) (hw true) with ⟨e, he, _⟩ | hboth
  · obtain ⟨context, hcontext⟩ := hbuild
    cases hcontext.symm.trans he
  · exact hboth

end Context

end ComponentDoc
