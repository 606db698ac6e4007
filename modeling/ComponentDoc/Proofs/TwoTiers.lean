import ComponentDoc.Proofs.Outcome

set_option autoImplicit false

namespace ComponentDoc

open Schema Tiers

namespace Tiers

variable {keep keep' : Declaration → Bool} {fs : List Field}

theorem copied_copied {gs : List Field} (hgs : gs ≠ [] → ∀ v, extracted keep' (extracted keep v gs) gs =
    extracted keep v gs) (v : Value) : copied keep' gs (copied keep gs v) = copied keep gs v := by
  cases gs with
  | nil => rfl
  | cons g gs => exact hgs (List.cons_ne_nil g gs) v

theorem extracted_extracted (h : Distinct fs)
    (hkeep : ∀ p ∈ places fs, p.isKept keep = true → p.isKept keep' = true) (v : Value) :
    extracted keep' (extracted keep v fs) fs = extracted keep v fs := by
  induction fs using Field.level_induction generalizing v with
  | level fs ih =>
    have hfield : ∀ f ∈ fs, keptField keep' (extracted keep v fs) f = keptField keep v f := by
      intro f hmem
      obtain ⟨d, gs⟩ := f
      rw [keptField_node, keptField_node, getKey_extracted h hmem]
      cases hd : keep d with
      | false => simp
      | true =>
        have htop := hkeep _ (top_mem_places hmem) (by simpa using hd)
        have hd' : keep' d = true := by simpa using htop
        have hbelow : ∀ q ∈ places gs, q.isKept keep = true → q.isKept keep' = true := by
          intro q hq hk
          have hunder := hkeep _ (under_mem_places hmem hq) (by simp [hd, hk])
          simpa [hd'] using hunder
        have hcopied := copied_copied (fun _ => ih d gs hmem (h.children hmem) hbelow)
        simp only [hd', if_true]
        cases v.getKey d.name with
        | none => rfl
        | some w => simp [hcopied w]
    have hkept : kept keep' (extracted keep v fs) fs = kept keep v fs := by
      rw [kept_eq_flatMap, List.flatMap_congr hfield, ← kept_eq_flatMap]
    rw [extracted, hkept, extracted]

/-- The common tier is the advanced one exactly if none of the fields shown is advanced. -/
theorem common_eq_advanced_iff (h : Distinct fs) {v : Value}
    (hfound : ∀ p ∈ livePlaces fs, (p.found v).isSome = true) :
    extracted shownCommon (extracted shownAdvanced v fs) fs = extracted shownAdvanced v fs ↔
      ∀ p ∈ livePlaces fs, p.declaration.advanced = false := by
  constructor
  · intro heq p hp
    obtain ⟨hmem, hlive⟩ := mem_livePlaces.mp hp
    have hkept : p.isKept shownAdvanced = true := hlive
    have hadvanced : (p.found (extracted shownAdvanced v fs)).isSome = true := by
      rw [found_extracted h hmem, hkept, if_pos rfl, Option.isSome_map]
      exact hfound p hp
    rw [← heq, found_extracted h hmem] at hadvanced
    cases hc : p.isKept shownCommon with
    | false => simp [hc] at hadvanced
    | true =>
      have hown := Place.keep_declaration hc
      simp only [shownCommon, Bool.and_eq_true, Bool.not_eq_true'] at hown
      exact hown.2
  · intro hnone
    apply extracted_extracted h
    intro p hp hk
    refine isKept_of_forall ?_ hp hk
    intro q hq hkq
    have hq' : q ∈ livePlaces fs := mem_livePlaces.mpr ⟨hq, hkq⟩
    have hown : shownAdvanced q.declaration = true := Place.keep_declaration hkq
    simpa [shownCommon, shownAdvanced, hnone q hq'] using hown

end Tiers

/-- The written form of a value, if it has one, reads back as that value. -/
def Yaml.RoundTrips (v : Value) : Prop :=
  ∀ text, Yaml.write v = .ok text → Yaml.parseValue text = .ok v

theorem Yaml.RoundTrips.eq {v w : Value} {text : String} (hv : RoundTrips v) (hw : RoundTrips w)
    (htv : Yaml.write v = .ok text) (htw : Yaml.write w = .ok text) : v = w := by
  have hread := hv text htv
  rw [hw text htw] at hread
  exact (Except.ok.inj hread).symm

theorem Yaml.RoundTrips.of_parseValue {v : Value} {text : String} (hw : Yaml.write v = .ok text)
    (hr : Yaml.parseValue text = .ok v) : RoundTrips v := by
  intro written hwritten
  cases hw.symm.trans hwritten
  exact hr

theorem ExampleBlocks.wrapped_injective {name root : String} {v w : Value}
    (h : wrapped name root v = wrapped name root w) : v = w := by
  unfold wrapped at h
  split at h
  · simpa [Value.wrap] using h
  · simpa [Value.wrap] using h

namespace Context

theorem found_of_entries {config : Config} {fs : List Field} {full : Value} {es : List FieldEntry}
    (hn : WellNamed fs) (hfits : Fits shownAdvanced full fs)
    (h : entries config full ((livePlaces fs).map (Place.flat full)) = .ok es) :
    ∀ p ∈ livePlaces fs, (p.found full).isSome = true := by
  intro p hp
  obtain ⟨hmem, hlive⟩ := mem_livePlaces.mp hp
  have hlookup := (entries_eq_ok h).1 _ (List.mem_map_of_mem hp)
  have hpath : (p.flat full).path = p.path := rfl
  rwa [hpath, lookup_path hn hfits hmem hlive] at hlookup

theorem exists_advanced_iff {config : Config} {fs : List Field} {full : Value} {es : List FieldEntry}
    (h : entries config full ((livePlaces fs).map (Place.flat full)) = .ok es) :
    (∃ e ∈ es, e.advanced = true) ↔ ∃ p ∈ livePlaces fs, p.declaration.advanced = true := by
  have hflags : es.map FieldEntry.advanced =
      (livePlaces fs).map (fun p => p.declaration.advanced) := by
    rw [entries_advanced h, List.map_map]
    rfl
  have hmem : true ∈ es.map FieldEntry.advanced ↔
      true ∈ (livePlaces fs).map (fun p => p.declaration.advanced) := by rw [hflags]
  simpa using hmem

/-- A document shows two tiers exactly if one of its field entries is advanced. -/
theorem hasTiers_iff {config : Config} {c : Component} {sample : Value} {context : Context}
    (hl : (lintFields "" c.fields).errors = []) (hb : build config c sample = .ok context)
    (hround : ∀ full t, sample.normalize = .ok full → Tiers.split c.fields full = .ok t →
      Yaml.RoundTrips (ExampleBlocks.wrapped c.name (root config c) t.advanced) ∧
        Yaml.RoundTrips (ExampleBlocks.wrapped c.name (root config c) t.common)) :
    context.hasTiers = true ↔ ∃ e ∈ context.fields, e.advanced = true := by
  by_cases hne : c.fields = []
  · obtain ⟨hfields, hblocks⟩ := build_eq_ok_of_no_fields hne hb
    simp [hasTiers, hfields, hblocks]
  · have hn := (lintFields_errors_eq_nil.mp hl).toWellNamed
    obtain ⟨full, hnormal, hfits, _, hentries⟩ := build_eq_ok_of_fields hne hn.distinct hb
    have hsplit := Tiers.split_of_fits hne hn.distinct hfits
    obtain ⟨hra, hrc⟩ := hround full _ hnormal hsplit
    obtain ⟨t, ht, hwa, hwc⟩ := ExampleBlocks.ofExample_eq_ok.mp (blocks_of_build hnormal hb)
    cases hsplit.symm.trans ht
    have hschema : c.hasSchema = true := by simpa [Component.hasSchema] using hne
    rw [if_pos hschema] at hwc
    have hblocks : context.commonConfig = context.advancedConfig ↔
        extracted shownCommon (extracted shownAdvanced full c.fields) c.fields =
          extracted shownAdvanced full c.fields := by
      constructor
      · intro heq
        exact ExampleBlocks.wrapped_injective (hrc.eq hra hwc (heq ▸ hwa))
      · intro heq
        rw [heq] at hwc
        exact Except.ok.inj (hwc.symm.trans hwa)
    rw [hasTiers, bne_iff_ne, ne_eq, hblocks, exists_advanced_iff hentries,
      common_eq_advanced_iff hn.distinct (found_of_entries hn hfits hentries)]
    simp

def tieredReader : Component where
  name := "reader"
  category := "sources"
  fields := [⟨{ name := "source" }, [.common "path" "", .advanced "retries" ""]⟩]

def tieredSample : Value :=
  .map [(.str "source", .map [(.str "path", .str "in"), (.str "retries", .int 3)])]

theorem normalize_tieredSample : tieredSample.normalize = .ok tieredSample := by
  have hw : Yaml.write tieredSample = .ok "source:\n  path: in\n  retries: 3\n" :=
    Yaml.write_eq (by decide +kernel)
  have hr : Yaml.parseValue "source:\n  path: in\n  retries: 3\n" = .ok tieredSample :=
    Yaml.parseValue_eq (by decide +kernel)
  exact Value.normalize_eq hw hr

theorem hasTiers_iff_tieredReader :
    ∃ context, build {} tieredReader tieredSample = .ok context ∧ context.hasTiers = true ∧
      ∃ e ∈ context.fields, e.advanced = true := by
  have hl : (lintFields "" tieredReader.fields).errors = [] := by decide +kernel
  have hn := (lintFields_errors_eq_nil.mp hl).toWellNamed
  have hne : tieredReader.fields ≠ [] := by simp [tieredReader]
  have hsplit : Tiers.split tieredReader.fields tieredSample = .ok ⟨tieredSample, readerSample⟩ := rfl
  have hwa : Yaml.write (Value.wrap "reader" tieredSample) =
      .ok "reader:\n  source:\n    path: in\n    retries: 3\n" := Yaml.write_eq (by decide +kernel)
  have hra : Yaml.parseValue "reader:\n  source:\n    path: in\n    retries: 3\n" =
      .ok (Value.wrap "reader" tieredSample) := Yaml.parseValue_eq (by decide +kernel)
  have hwc : Yaml.write (Value.wrap "reader" readerSample) =
      .ok "reader:\n  source:\n    path: in\n" := Yaml.write_eq (by decide +kernel)
  have hrc : Yaml.parseValue "reader:\n  source:\n    path: in\n" =
      .ok (Value.wrap "reader" readerSample) := Yaml.parseValue_eq (by decide +kernel)
  have hbuild : ∃ context, build {} tieredReader tieredSample = .ok context := by
    apply errorOf_eq_none
    rw [errorOf_build_eq {} tieredReader normalize_tieredSample]
    decide +kernel
  obtain ⟨context, hb⟩ := hbuild
  have hadvanced : ∃ e ∈ context.fields, e.advanced = true := by
    obtain ⟨full, _, _, _, hentries⟩ := build_eq_ok_of_fields hne hn.distinct hb
    have hplace : .under { name := "source" } (.top { name := "retries", advanced := true } []) ∈
        places tieredReader.fields :=
      under_mem_places (List.mem_singleton_self _) (top_mem_places (.tail _ (.head _)))
    exact (exists_advanced_iff hentries).mpr ⟨_, mem_livePlaces.mpr ⟨hplace, rfl⟩, rfl⟩
  refine ⟨context, hb, (hasTiers_iff hl hb ?_).mpr hadvanced, hadvanced⟩
  intro full t hfull ht
  cases normalize_tieredSample.symm.trans hfull
  cases hsplit.symm.trans ht
  exact ⟨.of_parseValue hwa hra, .of_parseValue hwc hrc⟩

end Context

end ComponentDoc
