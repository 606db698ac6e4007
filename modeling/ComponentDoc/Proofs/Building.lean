import ComponentDoc.Context
import ComponentDoc.Proofs.Addressing
import ComponentDoc.Proofs.Flattening

set_option autoImplicit false

namespace ComponentDoc

open Schema

theorem bind_eq_ok {ε α β : Type} {x : Except ε α} {f : α → Except ε β} {b : β} :
    (x >>= f) = .ok b ↔ ∃ a, x = .ok a ∧ f a = .ok b := by
  cases x <;> simp [bind, Except.bind]

theorem ok_bind {ε α β : Type} (a : α) (f : α → Except ε β) : (.ok a >>= f) = f a := rfl

namespace Tiers

theorem split_eq_ok {fs : List Field} (hne : fs ≠ []) (h : Distinct fs) {v : Value} {t : Tiers}
    (ht : split fs v = .ok t) :
    Fits shownAdvanced v fs ∧
      t = ⟨extracted shownAdvanced v fs,
        extracted shownCommon (extracted shownAdvanced v fs) fs⟩ := by
  rw [split_eq hne h] at ht
  cases hm : v.asMapping with
  | none => simp [hm] at ht
  | some es =>
    cases hb : firstBlocked shownAdvanced v fs with
    | some p => simp [hm, hb] at ht
    | none =>
      simp only [hm, hb, Option.isNone_some, Bool.false_eq_true, if_false, Except.ok.injEq] at ht
      exact ⟨⟨by simp [hm], firstBlocked_eq_none.mp hb⟩, ht.symm⟩

theorem split_of_fits {fs : List Field} (hne : fs ≠ []) (h : Distinct fs) {v : Value}
    (hv : Fits shownAdvanced v fs) :
    split fs v = .ok ⟨extracted shownAdvanced v fs,
      extracted shownCommon (extracted shownAdvanced v fs) fs⟩ := by
  rw [split_eq hne h, firstBlocked_eq_none.mpr hv.below, if_neg]
  simpa using Option.isSome_iff_ne_none.mp hv.root

end Tiers

namespace ExampleBlocks

theorem ofExample_eq_ok {c : Component} {root : String} {full : Value} {b : ExampleBlocks} :
    ofExample c root full = .ok b ↔ ∃ t, Tiers.split c.fields full = .ok t ∧
      Yaml.write (wrapped c.name root t.advanced) = .ok b.advanced ∧
      (if c.hasSchema then Yaml.write (wrapped c.name root t.common) else .ok b.advanced) =
        .ok b.common := by
  obtain ⟨advanced, common⟩ := b
  cases hc : c.hasSchema <;>
    simp only [ofExample, hc, bind_eq_ok, pure, Except.pure, Except.ok.injEq, Bool.false_eq_true,
      if_true, if_false]
  · constructor
    · intro h
      obtain ⟨t, ht, a, ha, m, rfl, hb⟩ := h
      cases hb
      exact ⟨t, ht, ha, rfl⟩
    · intro h
      obtain ⟨t, ht, ha, rfl⟩ := h
      exact ⟨t, ht, advanced, ha, advanced, rfl, rfl⟩
  · constructor
    · intro h
      obtain ⟨t, ht, a, ha, m, hm, hb⟩ := h
      cases hb
      exact ⟨t, ht, ha, hm⟩
    · intro h
      obtain ⟨t, ht, ha, hm⟩ := h
      exact ⟨t, ht, advanced, ha, common, hm, rfl⟩

end ExampleBlocks

namespace Context

theorem entry_eq_ok {config : Config} {full : Value} {f : FlatField} {e : FieldEntry} :
    entry config full f = .ok e ↔ ∃ found type examples, full.lookup f.path = some found ∧
      inferType f.path f.declaration (some found) = .ok type ∧
      writeExamples f.path f.declaration.examples = .ok examples ∧
      e = {
        name := f.path
        type
        description := describe config f.declaration.description
        advanced := f.declaration.advanced
        interpolation := f.declaration.interpolation
        interpolationNote := noteFor config.interpolationDocsUrl f.declaration.interpolation
        examples
        options := f.declaration.options } := by
  unfold entry
  cases hl : full.lookup f.path with
  | none => simp
  | some w =>
    simp only [bind_eq_ok, pure, Except.pure, Except.ok.injEq, Option.some.injEq]
    constructor
    · intro h
      obtain ⟨type, ht, examples, hex, rfl⟩ := h
      exact ⟨w, type, examples, rfl, ht, hex, rfl⟩
    · intro h
      obtain ⟨_, type, examples, rfl, ht, hex, rfl⟩ := h
      exact ⟨type, ht, examples, hex, rfl⟩

theorem entries_eq_ok_iff {config : Config} {full : Value} {fs : List FlatField}
    {es : List FieldEntry} :
    entries config full fs = .ok es ↔ List.Forall₂ (fun f e => entry config full f = .ok e) fs es := by
  induction fs generalizing es with
  | nil => simp [entries, eq_comm]
  | cons f fs ih =>
    simp only [entries, bind_eq_ok, pure, Except.pure, Except.ok.injEq, List.forall₂_cons_left_iff, ih]
    constructor
    · intro h
      obtain ⟨e, he, rest, hrest, rfl⟩ := h
      exact ⟨e, rest, he, hrest, rfl⟩
    · intro h
      obtain ⟨e, rest, he, hrest, rfl⟩ := h
      exact ⟨e, he, rest, hrest, rfl⟩

theorem entries_map_eq {config : Config} {full : Value} {fs : List FlatField} {es : List FieldEntry}
    {β : Type} {shown : FieldEntry → β} {declared : FlatField → β}
    (hentry : ∀ f e, entry config full f = .ok e → shown e = declared f)
    (h : entries config full fs = .ok es) : es.map shown = fs.map declared := by
  replace h := entries_eq_ok_iff.mp h
  induction h with
  | nil => rfl
  | cons he _ ih => rw [List.map_cons, List.map_cons, hentry _ _ he, ih]

theorem entries_eq_ok {config : Config} {full : Value} {fs : List FlatField} {es : List FieldEntry}
    (h : entries config full fs = .ok es) :
    (∀ f ∈ fs, (full.lookup f.path).isSome = true) ∧
      es.map FieldEntry.name = fs.map FlatField.path := by
  constructor
  · replace h := entries_eq_ok_iff.mp h
    induction h with
    | nil => simp
    | cons he _ ih =>
      obtain ⟨found, _, _, hfound, _, _, _⟩ := entry_eq_ok.mp he
      exact List.forall_mem_cons.mpr ⟨by rw [hfound, Option.isSome_some], ih⟩
  · refine entries_map_eq ?_ h
    intro f e he
    obtain ⟨_, _, _, _, _, _, rfl⟩ := entry_eq_ok.mp he
    rfl

theorem entries_advanced {config : Config} {full : Value} {fs : List FlatField}
    {es : List FieldEntry} (h : entries config full fs = .ok es) :
    es.map FieldEntry.advanced = fs.map (·.declaration.advanced) := by
  refine entries_map_eq ?_ h
  intro f e he
  obtain ⟨_, _, _, _, _, _, rfl⟩ := entry_eq_ok.mp he
  rfl

theorem filter_flat (full : Value) (fs : List Field) :
    ((places fs).map (Place.flat full)).filter (fun f => !f.declaration.deprecated) =
      (livePlaces fs).map (Place.flat full) := by
  rw [List.filter_map, livePlaces]
  congr 2
  funext p
  simp [Place.flat]

theorem flatFields_eq {c : Component} (hne : c.fields ≠ []) (full : Value) :
    flatFields c full =
      if (reconcile c.fields full).missing = [] then .ok ((places c.fields).map (Place.flat full))
      else .error (.undeclared (reconcile c.fields full).missing) := by
  have hschema : c.hasSchema = true := by simpa [Component.hasSchema] using hne
  rw [flatFields, if_pos hschema, check, Reconciliation.checked, reconcile_fields]
  simp [Reconciliation.isConsistent]

theorem build_eq_ok {config : Config} {c : Component} {sample : Value} {context : Context} :
    build config c sample = .ok context ↔ ∃ full blocks flat fields,
      sample.normalize = .ok full ∧ ExampleBlocks.ofExample c (root config c) full = .ok blocks ∧
      flatFields c full = .ok flat ∧
      entries config full (flat.filter (fun f => !f.declaration.deprecated)) = .ok fields ∧
      context = {
        name := c.name
        category := c.category
        summary := c.summary
        description := trimNewline c.description
        sourceHint := hintFor config c
        fields
        commonConfig := blocks.common
        advancedConfig := blocks.advanced } := by
  simp only [build, bind_eq_ok, pure, Except.pure, Except.ok.injEq]
  constructor
  · intro h
    obtain ⟨full, hn, blocks, hb, flat, hf, fields, he, rfl⟩ := h
    exact ⟨full, blocks, flat, fields, hn, hb, hf, he, rfl⟩
  · intro h
    obtain ⟨full, blocks, flat, fields, hn, hb, hf, he, rfl⟩ := h
    exact ⟨full, hn, blocks, hb, flat, hf, fields, he, rfl⟩

/-- With fields declared, the entries are those of the places shown, and the example covers and fits
the schema. -/
theorem build_eq_ok_of_fields {config : Config} {c : Component} {sample : Value} {context : Context}
    (hne : c.fields ≠ []) (h : Distinct c.fields) (hb : build config c sample = .ok context) :
    ∃ full, sample.normalize = .ok full ∧ Fits Tiers.shownAdvanced full c.fields ∧
      Covers Value.getKey c.fields full ∧
      entries config full ((livePlaces c.fields).map (Place.flat full)) = .ok context.fields := by
  obtain ⟨full, blocks, flat, fields, hn, hblocks, hflat, hentries, rfl⟩ := build_eq_ok.mp hb
  obtain ⟨t, ht, _, _⟩ := ExampleBlocks.ofExample_eq_ok.mp hblocks
  rw [flatFields_eq hne] at hflat
  split at hflat
  · next hmissing =>
    cases hflat
    rw [filter_flat] at hentries
    refine ⟨full, hn, (Tiers.split_eq_ok hne h ht).1, reconcile_isConsistent.mp ?_, hentries⟩
    simp [Reconciliation.isConsistent, hmissing]
  · cases hflat

theorem build_eq_ok_of_no_fields {config : Config} {c : Component} {sample : Value}
    {context : Context} (hnone : c.fields = []) (hb : build config c sample = .ok context) :
    context.fields = [] ∧ context.commonConfig = context.advancedConfig := by
  have hschema : c.hasSchema = false := by simp [Component.hasSchema, hnone]
  obtain ⟨full, blocks, flat, fields, _, hblocks, hflat, hentries, rfl⟩ := build_eq_ok.mp hb
  rw [flatFields, hschema] at hflat
  cases hflat
  cases hentries
  obtain ⟨_, _, _, hcommon⟩ := ExampleBlocks.ofExample_eq_ok.mp hblocks
  rw [hschema] at hcommon
  exact ⟨rfl, (Except.ok.inj hcommon).symm⟩

theorem blocks_of_build {config : Config} {c : Component} {sample full : Value} {context : Context}
    (hnormal : sample.normalize = .ok full) (hb : build config c sample = .ok context) :
    ExampleBlocks.ofExample c (root config c) full =
      .ok ⟨context.advancedConfig, context.commonConfig⟩ := by
  obtain ⟨v, blocks, _, _, hv, hblocks, _, _, rfl⟩ := build_eq_ok.mp hb
  cases hnormal.symm.trans hv
  exact hblocks

end Context

end ComponentDoc
