import ComponentDoc.Layout
import ComponentDoc.Proofs.Documented
import ComponentDoc.Proofs.Redaction

/-!
Deprecated parts do not show in a document. What a document is put together from can be read off the
schema and the example without their deprecated parts, so two runs that agree beside these parts make
the same document.
-/

set_option autoImplicit false

namespace ComponentDoc

open Schema Tiers

namespace Context

/-- An entry depends on the example only through the type of the value under its path. -/
theorem entry_congr (config : Config) {full other : Value} {f g : FlatField} (hpath : f.path = g.path)
    (hd : f.declaration = g.declaration)
    (htype : (full.lookup f.path).map Value.typeName = (other.lookup g.path).map Value.typeName) :
    entry config full f = entry config other g := by
  unfold entry
  cases hf : full.lookup f.path with
  | none =>
    cases hg : other.lookup g.path with
    | none => rw [hpath]
    | some w => simp [hf, hg] at htype
  | some v =>
    cases hg : other.lookup g.path with
    | none => simp [hf, hg] at htype
    | some w =>
      have hvw : v.typeName = w.typeName := by simpa [hf, hg] using htype
      simp only [inferType, Option.bind_some, hvw, hpath, hd]

theorem entries_congr (config : Config) {full other : Value} {fs gs : List FlatField}
    (h : fs.map (entry config full) = gs.map (entry config other)) :
    entries config full fs = entries config other gs := by
  induction fs generalizing gs with
  | nil =>
    cases gs with
    | nil => rfl
    | cons g gs => cases h
  | cons f fs ih =>
    cases gs with
    | nil => cases h
    | cons g gs =>
      obtain ⟨hhead, htail⟩ := List.cons.inj h
      rw [entries, entries, hhead, ih htail]

theorem entries_redact (config : Config) {fs : List Field} {full : Value} (hn : WellNamed fs)
    (hfits : Fits shownAdvanced full fs) :
    entries config full ((livePlaces fs).map (Place.flat full)) =
      entries config (full.redact fs)
        ((livePlaces (redact fs)).map (Place.flat (full.redact fs))) := by
  apply entries_congr
  rw [livePlaces_redact, List.map_map, List.map_map, List.map_map]
  apply List.map_congr_left
  intro p hp
  obtain ⟨hmem, hlive⟩ := mem_livePlaces.mp hp
  apply entry_congr
  · rfl
  · rfl
  · change (full.lookup p.path).map Value.typeName =
      ((full.redact fs).lookup p.path).map Value.typeName
    rw [lookup_path hn hfits hmem hlive, lookup_path hn (hfits.redact hn.distinct) hmem hlive,
      Place.found_redact hn.distinct hmem hlive, Option.map_map]
    congr 1
    funext w
    exact (Value.typeName_redact _ w).symm

theorem split_redact {fs : List Field} {v : Value} {t : Tiers} (hne : fs ≠ []) (h : Distinct fs)
    (ht : Tiers.split fs v = .ok t) :
    t = ⟨extracted shownAdvanced (v.redact fs) (redact fs),
      extracted shownCommon (extracted shownAdvanced (v.redact fs) (redact fs)) (redact fs)⟩ := by
  have hadvanced : ∀ d, shownAdvanced d = true → d.deprecated = false := by
    simp [shownAdvanced]
  have hcommon : ∀ d, shownCommon d = true → d.deprecated = false := by
    intro d hd
    simp only [shownCommon, Bool.and_eq_true, Bool.not_eq_true'] at hd
    exact hd.1
  rw [extracted_redact_fields hadvanced, extracted_redact_value hadvanced h,
    extracted_redact_fields hcommon]
  exact (split_eq_ok hne h ht).2

section

variable {fs₁ fs₂ : List Field} {v₁ v₂ : Value}

theorem split_congr (h₁ : Distinct fs₁) (h₂ : Distinct fs₂) (hfs : redact fs₁ = redact fs₂)
    (hv : v₁.redact fs₁ = v₂.redact fs₂) {t₁ t₂ : Tiers} (ht₁ : Tiers.split fs₁ v₁ = .ok t₁)
    (ht₂ : Tiers.split fs₂ v₂ = .ok t₂) : t₁ = t₂ := by
  by_cases hne : fs₁ = []
  · have hnil : fs₂ = [] := redact_eq_nil.mp (by rw [← hfs, hne, redact_nil])
    subst hne hnil
    rw [Value.redact_nil, Value.redact_nil] at hv
    rw [hv] at ht₁
    exact Except.ok.inj (ht₁.symm.trans ht₂)
  · have hne' : fs₂ ≠ [] := fun h => hne (redact_eq_nil.mp (by rw [hfs, h, redact_nil]))
    rw [split_redact hne h₁ ht₁, split_redact hne' h₂ ht₂, hfs, hv]

end

theorem fields_of_build {config : Config} {c : Component} {sample full : Value} {context : Context}
    (hn : WellNamed c.fields) (hnormal : sample.normalize = .ok full)
    (hb : build config c sample = .ok context) :
    entries config (full.redact c.fields)
      ((livePlaces (redact c.fields)).map (Place.flat (full.redact c.fields))) =
        .ok context.fields := by
  by_cases hne : c.fields = []
  · obtain ⟨_, _, flat, fields, _, _, hflat, hentries, rfl⟩ := build_eq_ok.mp hb
    have hschema : c.hasSchema = false := by simp [Component.hasSchema, hne]
    rw [flatFields, hschema] at hflat
    cases hflat
    rw [hne]
    exact hentries
  · obtain ⟨v, hv, hfits, _, hentries⟩ := build_eq_ok_of_fields hne hn.distinct hb
    cases hnormal.symm.trans hv
    rwa [← entries_redact config hn hfits]

/-- Two runs that agree beside the deprecated parts of schema and example make the same document. -/
theorem build_noninterference {config : Config} {c₁ c₂ : Component} {sample₁ sample₂ v₁ v₂ : Value}
    {context₁ context₂ : Context} (hl₁ : (lintFields "" c₁.fields).errors = [])
    (hl₂ : (lintFields "" c₂.fields).errors = []) (hc : c₁.redact = c₂.redact)
    (hn₁ : sample₁.normalize = .ok v₁) (hn₂ : sample₂.normalize = .ok v₂)
    (hv : v₁.redact c₁.fields = v₂.redact c₂.fields)
    (hb₁ : build config c₁ sample₁ = .ok context₁) (hb₂ : build config c₂ sample₂ = .ok context₂) :
    context₁ = context₂ ∧ document config c₁ sample₁ = document config c₂ sample₂ := by
  have hw₁ := (lintFields_errors_eq_nil.mp hl₁).toWellNamed
  have hw₂ := (lintFields_errors_eq_nil.mp hl₂).toWellNamed
  obtain ⟨hname, hcategory, hsummary, hdescription, hfs⟩ : c₁.name = c₂.name ∧
      c₁.category = c₂.category ∧ c₁.summary = c₂.summary ∧ c₁.description = c₂.description ∧
      redact c₁.fields = redact c₂.fields := by
    simpa [Component.redact] using hc
  have hfields : context₁.fields = context₂.fields := by
    have hf₁ := fields_of_build hw₁ hn₁ hb₁
    have hf₂ := fields_of_build hw₂ hn₂ hb₂
    rw [hv, hfs] at hf₁
    exact Except.ok.inj (hf₁.symm.trans hf₂)
  have hblocks : context₁.advancedConfig = context₂.advancedConfig ∧
      context₁.commonConfig = context₂.commonConfig := by
    have he₁ := blocks_of_build hn₁ hb₁
    have he₂ := blocks_of_build hn₂ hb₂
    have hroot : root config c₁ = root config c₂ := by rw [root, root, hcategory]
    have hschema : c₁.hasSchema = c₂.hasSchema := by
      rw [Component.hasSchema, Component.hasSchema, ← isEmpty_redact, hfs, isEmpty_redact]
    obtain ⟨t₁, ht₁, ha₁, hm₁⟩ := ExampleBlocks.ofExample_eq_ok.mp he₁
    obtain ⟨t₂, ht₂, ha₂, hm₂⟩ := ExampleBlocks.ofExample_eq_ok.mp he₂
    cases split_congr hw₁.distinct hw₂.distinct hfs hv ht₁ ht₂
    rw [hname, hroot] at ha₁ hm₁
    have ha : context₁.advancedConfig = context₂.advancedConfig :=
      Except.ok.inj (ha₁.symm.trans ha₂)
    rw [hschema, ha] at hm₁
    exact ⟨ha, Except.ok.inj (hm₁.symm.trans hm₂)⟩
  have hhint : hintFor config c₁ = hintFor config c₂ := by
    rw [hintFor, hintFor, hname, hcategory]
  have hcontext : context₁ = context₂ := by
    obtain ⟨_, _, _, _, _, _, _, _, rfl⟩ := build_eq_ok.mp hb₁
    obtain ⟨_, _, _, _, _, _, _, _, rfl⟩ := build_eq_ok.mp hb₂
    simp only [Context.mk.injEq]
    exact ⟨hname, hcategory, hsummary, by rw [hdescription], hhint, hfields, hblocks.2, hblocks.1⟩
  subst hcontext
  exact ⟨rfl, by rw [document, document, hb₁, hb₂]⟩

def retypedReader : Component := { steadyReader with
  fields := [⟨{ name := "source" }, [⟨{ name := "path" }, []⟩]⟩,
    ⟨{ name := "legacy", type := "int", deprecated := true }, []⟩] }

def legacySample (v : Value) : Value :=
  .map (Value.insert (.str "legacy") v [(.str "source", .map [(.str "path", .str "in")])])

theorem normalize_legacySample_host :
    (legacySample (.map [(.str "host", .str "a")])).normalize =
      .ok (legacySample (.map [(.str "host", .str "a")])) := by
  have hw : Yaml.write (legacySample (.map [(.str "host", .str "a")])) =
      .ok "source:\n  path: in\nlegacy:\n  host: a\n" := Yaml.write_eq (by decide +kernel)
  have hr : Yaml.parseValue "source:\n  path: in\nlegacy:\n  host: a\n" =
      .ok (legacySample (.map [(.str "host", .str "a")])) := Yaml.parseValue_eq (by decide +kernel)
  exact Value.normalize_eq hw hr

theorem normalize_legacySample_seven :
    (legacySample (.int 7)).normalize = .ok (legacySample (.int 7)) := by
  have hw : Yaml.write (legacySample (.int 7)) = .ok "source:\n  path: in\nlegacy: 7\n" :=
    Yaml.write_eq (by decide +kernel)
  have hr : Yaml.parseValue "source:\n  path: in\nlegacy: 7\n" = .ok (legacySample (.int 7)) :=
    Yaml.parseValue_eq (by decide +kernel)
  exact Value.normalize_eq hw hr

theorem build_noninterference_legacySample :
    ∃ context, build {} steadyReader (legacySample (.map [(.str "host", .str "a")])) = .ok context ∧
      build {} retypedReader (legacySample (.int 7)) = .ok context ∧
      document {} steadyReader (legacySample (.map [(.str "host", .str "a")])) =
        document {} retypedReader (legacySample (.int 7)) := by
  have hl : (lintFields "" retypedReader.fields).errors = [] := by decide +kernel
  have hw₁ := (lintFields_errors_eq_nil.mp lint_steadyReader).toWellNamed
  have hw₂ := (lintFields_errors_eq_nil.mp hl).toWellNamed
  have ht₁ : Tiers.split steadyReader.fields (legacySample (.map [(.str "host", .str "a")])) =
      .ok ⟨readerSample, readerSample⟩ := rfl
  have ht₂ : Tiers.split retypedReader.fields (legacySample (.int 7)) =
      .ok ⟨readerSample, readerSample⟩ := rfl
  obtain ⟨context₁, hb₁⟩ := exists_build {} (by simp [steadyReader]) hw₁
    normalize_legacySample_host ht₁ ⟨_, write_readerSample⟩ ⟨_, write_readerSample⟩
    (by simp [steadyReader, places_cons]) (by decide +kernel)
  obtain ⟨context₂, hb₂⟩ := exists_build {} (by simp [retypedReader]) hw₂
    normalize_legacySample_seven ht₂ ⟨_, write_readerSample⟩ ⟨_, write_readerSample⟩
    (by simp [retypedReader, places_cons]) (by decide +kernel)
  have hv : (legacySample (.map [(.str "host", .str "a")])).redact steadyReader.fields =
      (legacySample (.int 7)).redact retypedReader.fields := rfl
  obtain ⟨rfl, hdocument⟩ := build_noninterference lint_steadyReader hl rfl
    normalize_legacySample_host normalize_legacySample_seven hv hb₁ hb₂
  exact ⟨context₁, hb₁, hb₂, hdocument⟩

end Context

end ComponentDoc
