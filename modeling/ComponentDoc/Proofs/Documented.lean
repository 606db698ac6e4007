import ComponentDoc.Proofs.Outcome

set_option autoImplicit false

namespace ComponentDoc

open Schema Tiers

/-- Field entries of given names document exactly what an advanced tier shows of an example. -/
structure Documents (fs : List Field) (full advanced : Value) (names : List String) : Prop where
  ordered : names = (livePlaces fs).map Place.path
  distinct : names.Nodup
  shown : ∀ p ∈ livePlaces fs, (advanced.lookup p.path).isSome = true
  copied : ∀ p ∈ livePlaces fs, p.hasChildren = false →
    advanced.lookup p.path = full.lookup p.path
  hidden : ∀ p ∈ places fs, p.isLive = false →
    p.path ∉ names ∧ advanced.lookup p.path = none
  root : ∃ es, advanced = .map es ∧ ∀ e ∈ es, ∃ name, e.1 = .str name ∧ name ∈ names
  below : ∀ p ∈ places fs, p.hasChildren = true → ∀ w, advanced.lookup p.path = some w →
    ∃ es, w = .map es ∧ ∀ e ∈ es, ∃ name, e.1 = .str name ∧ p.path ++ "." ++ name ∈ names

namespace Documents

variable {fs : List Field} {full : Value}

/-- Under its path, an advanced tier holds what a shown place copies, and nothing for a place that is
not shown. -/
theorem lookup_extracted (hn : WellNamed fs) {p : Place} (hp : p ∈ places fs) (full : Value) :
    (extracted shownAdvanced full fs).lookup p.path =
      if p.isLive then (p.found full).map (Tiers.copied shownAdvanced p.children) else none := by
  have hfits : Fits (fun _ => true) (extracted shownAdvanced full fs) fs :=
    fits_extracted hn.distinct _ full
  rw [lookup_path hn hfits hp (by simp [Place.isKept]), found_extracted hn.distinct hp]
  rfl

theorem mem_paths_iff (hn : WellNamed fs) {p : Place} (hp : p ∈ places fs) :
    p.path ∈ (livePlaces fs).map Place.path ↔ p.isLive = true := by
  constructor
  · intro h
    obtain ⟨q, hq, hpath⟩ := List.mem_map.mp h
    obtain ⟨hmem, hlive⟩ := mem_livePlaces.mp hq
    rwa [eq_of_path_eq hn hp hmem hpath.symm]
  · exact fun h => List.mem_map_of_mem (mem_livePlaces.mpr ⟨hp, h⟩)

theorem of_extracted (hn : WellNamed fs) (hfits : Fits shownAdvanced full fs)
    (hfound : ∀ p ∈ livePlaces fs, (full.lookup p.path).isSome = true) :
    Documents fs full (extracted shownAdvanced full fs) ((livePlaces fs).map Place.path) where
  ordered := rfl
  distinct := (paths_nodup hn).sublist (List.filter_sublist.map Place.path)
  shown := by
    intro p hp
    obtain ⟨hmem, hlive⟩ := mem_livePlaces.mp hp
    have hp := hfound p hp
    rw [lookup_path hn hfits hmem hlive] at hp
    rw [lookup_extracted hn hmem, if_pos hlive, Option.isSome_map, hp]
  copied := by
    intro p hp hleaf
    obtain ⟨hmem, hlive⟩ := mem_livePlaces.mp hp
    have hchildren : p.children.isEmpty = true := by simpa [Place.hasChildren] using hleaf
    have hcopied : Tiers.copied shownAdvanced p.children = id := by
      funext w
      simp [Tiers.copied, hchildren]
    rw [lookup_extracted hn hmem, if_pos hlive, lookup_path hn hfits hmem hlive, hcopied,
      Option.map_id, id]
  hidden := by
    intro p hp hlive
    rw [mem_paths_iff hn hp, lookup_extracted hn hp, hlive]
    simp
  root := by
    obtain ⟨es, hes, hkeys⟩ := extracted_keys hn.distinct full
    refine ⟨es, hes, ?_⟩
    intro e he
    obtain ⟨d, gs, hmem, hkeep, hname⟩ := hkeys e he
    refine ⟨d.name, hname, ?_⟩
    have hpath := (mem_paths_iff hn (top_mem_places hmem)).mpr
      (by rw [Place.isLive_top]; exact hkeep)
    rwa [Place.path_top] at hpath
  below := by
    intro p hp hc w hw
    rw [lookup_extracted hn hp] at hw
    cases hlive : p.isLive with
    | false => simp [hlive] at hw
    | true =>
      rw [if_pos hlive] at hw
      obtain ⟨u, _, rfl⟩ := Option.map_eq_some_iff.mp hw
      have hchildren : p.children.isEmpty = false := by simpa [Place.hasChildren] using hc
      obtain ⟨es, hes, hkeys⟩ := extracted_keys (hn.distinct.beneath hp) u
      refine ⟨es, by simpa [Tiers.copied, hchildren] using hes, ?_⟩
      intro e he
      obtain ⟨d, gs, hmem, hkeep, hname⟩ := hkeys e he
      refine ⟨d.name, hname, ?_⟩
      rw [← Place.path_child d gs p, mem_paths_iff hn (child_mem_places hp hmem),
        Place.isLive_child, hlive, Bool.true_and]
      exact hkeep

end Documents

namespace Context

theorem build_documents {config : Config} {c : Component} {sample : Value} {context : Context}
    (hne : c.fields ≠ []) (hl : (lintFields "" c.fields).errors = [])
    (hb : build config c sample = .ok context) :
    ∃ full tiers, sample.normalize = .ok full ∧ Tiers.split c.fields full = .ok tiers ∧
      Documents c.fields full tiers.advanced (context.fields.map FieldEntry.name) := by
  have hn := (lintFields_errors_eq_nil.mp hl).toWellNamed
  obtain ⟨full, hnormal, hfits, _, hentries⟩ := build_eq_ok_of_fields hne hn.distinct hb
  obtain ⟨hfound, hnames⟩ := entries_eq_ok hentries
  rw [List.map_map] at hnames
  have hsplit := Tiers.split_of_fits hne hn.distinct hfits
  refine ⟨full, _, hnormal, hsplit, ?_⟩
  rw [hnames]
  exact Documents.of_extracted hn hfits (List.forall_mem_map.mp hfound)

def steadyReader : Component where
  name := "reader"
  category := "sources"
  fields := [⟨{ name := "source" }, [⟨{ name := "path" }, []⟩]⟩,
    ⟨{ name := "legacy", deprecated := true }, [⟨{ name := "host" }, []⟩]⟩]

theorem lint_steadyReader : (lintFields "" steadyReader.fields).errors = [] := by decide +kernel

theorem build_steadyReader : ∃ context, build {} steadyReader readerSample = .ok context := by
  have hl := (lintFields_errors_eq_nil.mp lint_steadyReader).toWellNamed
  have ht : Tiers.split steadyReader.fields readerSample = .ok ⟨readerSample, readerSample⟩ := rfl
  exact exists_build {} (by simp [steadyReader]) hl normalize_readerSample ht
    ⟨_, write_readerSample⟩ ⟨_, write_readerSample⟩ (by simp [steadyReader, places_cons])
    (by decide +kernel)

theorem build_documents_steadyReader :
    ∃ context full tiers, build {} steadyReader readerSample = .ok context ∧
      readerSample.normalize = .ok full ∧ Tiers.split steadyReader.fields full = .ok tiers ∧
      Documents steadyReader.fields full tiers.advanced (context.fields.map FieldEntry.name) := by
  obtain ⟨context, hb⟩ := build_steadyReader
  obtain ⟨full, tiers, hn, hs, hd⟩ := build_documents (by simp [steadyReader]) lint_steadyReader hb
  exact ⟨context, full, tiers, hb, hn, hs, hd⟩

end Context

end ComponentDoc
