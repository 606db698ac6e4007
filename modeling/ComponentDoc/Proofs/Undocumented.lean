import ComponentDoc.Proofs.Documented
import ComponentDoc.Schema.Enforce

set_option autoImplicit false

namespace ComponentDoc

open Schema

namespace LintReport

/-- The paths that a report names for want of documentation. -/
def undocumented (r : LintReport) : List String :=
  (r.warnings.filter (fun f => f.message == "missing documentation")).map Finding.path

@[simp] theorem undocumented_append (r s : LintReport) :
    (r ++ s).undocumented = r.undocumented ++ s.undocumented := by
  have hwarnings : (r ++ s).warnings = r.warnings ++ s.warnings := rfl
  rw [undocumented, hwarnings, List.filter_append, List.map_append]
  rfl

@[simp] theorem undocumented_onlyIf (b : Bool) (r : LintReport) :
    (onlyIf b r).undocumented = if b then r.undocumented else [] := by cases b <;> rfl

@[simp] theorem undocumented_error (path message : String) :
    (error path message).undocumented = [] := rfl

@[simp] theorem undocumented_warning (path message : String) :
    (warning path message).undocumented =
      if message = "missing documentation" then [path] else [] := by
  by_cases h : message = "missing documentation" <;> simp [undocumented, warning, h]

end LintReport

namespace Place

/-- Not deprecated itself, and without a description to speak of. -/
def isUndocumented (p : Place) : Bool :=
  !p.declaration.deprecated && Text.allBlank p.declaration.description

/-- Shown, but without a description. -/
def lacksDescription (p : Place) : Bool := p.isLive && p.declaration.description == ""

theorem isUndocumented_of_lacksDescription {p : Place} (h : p.lacksDescription = true) :
    p.isUndocumented = true := by
  simp only [lacksDescription, Bool.and_eq_true, beq_iff_eq] at h
  obtain ⟨hlive, hempty⟩ := h
  have hdeprecated : (!p.declaration.deprecated) = true := keep_declaration hlive
  rw [isUndocumented, hdeprecated, hempty]
  rfl

end Place

namespace Schema

theorem undocumented_lintLevel {fs : List Field} (h : WellNamed fs) (above : String)
    (seen : List String) :
    (lintLevel above seen fs).undocumented =
      ((places fs).filter Place.isUndocumented).map (fun p => above ++ p.path) := by
  induction fs using Field.forest generalizing above seen with
  | nil => rfl
  | cons d gs fs ihg ihf =>
    obtain ⟨hname, _, hgs, hfs⟩ := wellNamed_cons.mp h
    have hne : d.name ≠ "" := by
      intro hempty
      rw [hempty] at hname
      cases hname
    have hdeclaration : (lintDeclaration (above ++ d.name) seen d (!gs.isEmpty)).undocumented =
        if (Place.top d gs).isUndocumented then [above ++ d.name] else [] := by
      simp [lintDeclaration, Place.isUndocumented]
    have hunder : Place.isUndocumented ∘ Place.under d = Place.isUndocumented := rfl
    rw [lintLevel, lintField, if_neg hne, LintReport.undocumented_append,
      LintReport.undocumented_append, hdeclaration, ihg hgs, ihf hfs, places_cons,
      List.filter_cons, List.filter_append, List.filter_map, hunder]
    split <;> simp [String.append_assoc]

theorem undocumented_lint {c : Component} (h : WellNamed c.fields) :
    (lint c).undocumented = ((places c.fields).filter Place.isUndocumented).map Place.path := by
  have hsummary : "component '" ++ c.name ++ "' has no summary" ≠ "missing documentation" := by
    intro h
    have hhead := congrArg (fun s => s.toList.head?) h
    simp at hhead
  simp [lint, lintFields, undocumented_lintLevel h, hsummary]

theorem lintFields_errors_of_lint {c : Component} (h : (lint c).errors = []) :
    (lintFields "" c.fields).errors = [] := by
  simp only [lint, LintReport.errors_append, List.append_eq_nil_iff] at h
  exact h.2

end Schema

namespace Context

/-- The fields that a document describes by the placeholder. -/
def placeheld (config : Config) (context : Context) : List String :=
  (context.fields.filter (fun e => e.description == config.missingDescription)).map FieldEntry.name

theorem descriptions_of_build {config : Config} {c : Component} {sample : Value} {context : Context}
    (h : Distinct c.fields) (hb : build config c sample = .ok context) :
    context.fields.map (fun e => (e.name, e.description)) =
      (livePlaces c.fields).map (fun p => (p.path, describe config p.declaration.description)) := by
  by_cases hne : c.fields = []
  · rw [(build_eq_ok_of_no_fields hne hb).1, hne]
    rfl
  · obtain ⟨full, _, _, _, hentries⟩ := build_eq_ok_of_fields hne h hb
    have hshown : ∀ f e, entry config full f = .ok e →
        (e.name, e.description) = (f.path, describe config f.declaration.description) := by
      intro f e he
      obtain ⟨_, _, _, _, _, _, rfl⟩ := entry_eq_ok.mp he
      rfl
    rw [entries_map_eq hshown hentries, List.map_map]
    rfl

theorem placeheld_of_build {config : Config} {c : Component} {sample : Value} {context : Context}
    (h : Distinct c.fields) (hb : build config c sample = .ok context)
    (hother : ∀ p ∈ places c.fields,
      trimNewline p.declaration.description ≠ config.missingDescription) :
    placeheld config context = ((places c.fields).filter Place.lacksDescription).map Place.path := by
  have hpairs : placeheld config context =
      ((context.fields.map (fun e => (e.name, e.description))).filter
        (fun e => e.2 == config.missingDescription)).map Prod.fst := by
    rw [List.filter_map, List.map_map]
    rfl
  rw [hpairs, descriptions_of_build h hb, List.filter_map, List.map_map, livePlaces,
    List.filter_filter]
  refine congrArg (List.map Place.path) (List.filter_congr fun p hp => ?_)
  rw [Place.lacksDescription, Function.comp_apply, describe, Bool.and_comm]
  by_cases hempty : p.declaration.description = ""
  · simp [hempty]
  · have hdescribed : (trimNewline p.declaration.description == config.missingDescription) = false :=
      beq_eq_false_iff_ne.mpr (hother p hp)
    simp [hempty, hdescribed]

theorem describe_eq_empty {config : Config} (hmissing : config.missingDescription ≠ "") {s : String} :
    describe config s = "" ↔ s = "\n" := by
  rw [describe]
  by_cases hs : s = ""
  · simp [hs, hmissing]
  · rw [if_neg hs, trimNewline]
    split
    · next cs hcs =>
      rw [← String.toList_inj, String.toList_ofList, ← String.toList_inj, hcs]
      simp
    · next hline =>
      constructor
      · exact fun h => absurd h hs
      · intro h
        exact absurd (congrArg String.toList h) (hline [])

theorem exists_undescribed_iff {config : Config} {c : Component} {sample : Value} {context : Context}
    (h : Distinct c.fields) (hb : build config c sample = .ok context)
    (hmissing : config.missingDescription ≠ "") :
    (∃ e ∈ context.fields, e.description = "") ↔
      ∃ p ∈ livePlaces c.fields, p.declaration.description = "\n" := by
  have hdescriptions := congrArg (List.map Prod.snd) (descriptions_of_build h hb)
  rw [List.map_map, List.map_map] at hdescriptions
  have hleft : (∃ e ∈ context.fields, e.description = "") ↔
      "" ∈ context.fields.map FieldEntry.description := List.mem_map.symm
  have hright : (∃ p ∈ livePlaces c.fields, p.declaration.description = "\n") ↔
      "" ∈ (livePlaces c.fields).map (fun p => describe config p.declaration.description) := by
    simp only [List.mem_map, describe_eq_empty hmissing]
  rw [hleft, hright]
  exact iff_of_eq (congrArg ("" ∈ ·) hdescriptions)

/-- A document puts its placeholder only where the linter asks for documentation. They name the same
fields exactly if each one that the linter names is shown and has the empty description. What is
described by nothing is the fields shown whose description is a single newline. -/
theorem undocumented_of_build {config : Config} {c : Component} {sample : Value} {context : Context}
    (hl : (lint c).errors = []) (hb : build config c sample = .ok context)
    (hmissing : Text.allBlank config.missingDescription = false)
    (hother : ∀ p ∈ places c.fields,
      trimNewline p.declaration.description ≠ config.missingDescription) :
    (lint c).undocumented = ((places c.fields).filter Place.isUndocumented).map Place.path ∧
      placeheld config context =
        ((places c.fields).filter Place.lacksDescription).map Place.path ∧
      (placeheld config context).Sublist (lint c).undocumented ∧
      ((lint c).undocumented = placeheld config context ↔
        ∀ p ∈ places c.fields, p.isUndocumented = true → p.lacksDescription = true) ∧
      ((∃ e ∈ context.fields, e.description = "") ↔
        ∃ p ∈ livePlaces c.fields, p.declaration.description = "\n") := by
  have hn : WellNamed c.fields := (lintFields_errors_eq_nil.mp (lintFields_errors_of_lint hl)).toWellNamed
  have hlint := undocumented_lint hn
  have hplaceheld := placeheld_of_build hn.distinct hb hother
  have hsub : ((places c.fields).filter Place.lacksDescription).Sublist
      ((places c.fields).filter Place.isUndocumented) :=
    List.monotone_filter_right _ (fun p => Place.isUndocumented_of_lacksDescription)
  refine ⟨hlint, hplaceheld, ?_, ?_, ?_⟩
  · rw [hlint, hplaceheld]
    exact hsub.map _
  · rw [hlint, hplaceheld]
    constructor
    · intro heq p hp hun
      have hlength := congrArg List.length heq
      rw [List.length_map, List.length_map] at hlength
      have hmem : p ∈ (places c.fields).filter Place.isUndocumented := List.mem_filter.mpr ⟨hp, hun⟩
      rw [← hsub.eq_of_length hlength.symm] at hmem
      exact (List.mem_filter.mp hmem).2
    · intro hall
      refine congrArg (List.map Place.path) (List.filter_congr fun p hp => ?_)
      rw [Bool.eq_iff_iff]
      exact ⟨hall p hp, Place.isUndocumented_of_lacksDescription⟩
  · refine exists_undescribed_iff hn.distinct hb (fun hempty => ?_)
    rw [hempty] at hmissing
    cases hmissing

def describedReader : Component where
  name := "reader"
  category := "sources"
  fields := [⟨{ name := "source" }, [.common "path" "\nThe file to read."]⟩]

theorem undocumented_of_build_describedReader :
    ∃ context, build {} describedReader readerSample = .ok context ∧
      (lint describedReader).undocumented = ["source"] ∧ placeheld {} context = ["source"] := by
  have hl : (lint describedReader).errors = [] := by decide +kernel
  have hn := (lintFields_errors_eq_nil.mp (lintFields_errors_of_lint hl)).toWellNamed
  have ht : Tiers.split describedReader.fields readerSample = .ok ⟨readerSample, readerSample⟩ := rfl
  obtain ⟨context, hb⟩ : ∃ context, build {} describedReader readerSample = .ok context :=
    exists_build {} (by simp [describedReader]) hn normalize_readerSample ht ⟨_, write_readerSample⟩
      ⟨_, write_readerSample⟩ (by simp [describedReader, places_cons, Field.common])
      (by decide +kernel)
  have hother : ∀ p ∈ places describedReader.fields,
      trimNewline p.declaration.description ≠ ({} : Config).missingDescription := by
    decide +kernel
  obtain ⟨hlint, hplaceheld, _, _, _⟩ := undocumented_of_build hl hb (by decide +kernel) hother
  refine ⟨context, hb, hlint.trans ?_, hplaceheld.trans ?_⟩ <;> decide +kernel

def blankReader : Component where
  name := "reader"
  category := "sources"
  fields := [⟨{ name := "source", description := "\n" }, [.common "path" "The file to read."]⟩,
    ⟨{ name := "legacy", deprecated := true }, [.common "host" ""]⟩]

/-- The linter names a blank description, which the document passes on as nothing, and a field beneath
a deprecated one, which the document hides. -/
theorem undocumented_disagrees :
    (lint blankReader).errors = [] ∧ Text.allBlank ({} : Config).missingDescription = false ∧
      (∀ p ∈ places blankReader.fields,
        p.declaration.description ≠ ({} : Config).missingDescription ∧
        trimNewline p.declaration.description ≠ ({} : Config).missingDescription) ∧
      ∃ context, build {} blankReader readerSample = .ok context ∧
        (lint blankReader).undocumented = ["source", "legacy.host"] ∧
        placeheld {} context = [] ∧ ∃ e ∈ context.fields, e.description = "" := by
  have hl : (lint blankReader).errors = [] := by decide +kernel
  have hn := (lintFields_errors_eq_nil.mp (lintFields_errors_of_lint hl)).toWellNamed
  have ht : Tiers.split blankReader.fields readerSample = .ok ⟨readerSample, readerSample⟩ := rfl
  obtain ⟨context, hb⟩ : ∃ context, build {} blankReader readerSample = .ok context :=
    exists_build {} (by simp [blankReader]) hn normalize_readerSample ht ⟨_, write_readerSample⟩
      ⟨_, write_readerSample⟩ (by simp [blankReader, places_cons, Field.common]) (by decide +kernel)
  have hother : ∀ p ∈ places blankReader.fields,
      p.declaration.description ≠ ({} : Config).missingDescription ∧
      trimNewline p.declaration.description ≠ ({} : Config).missingDescription := by
    decide +kernel
  refine ⟨hl, by decide +kernel, hother, context, hb, (undocumented_lint hn).trans ?_,
    (placeheld_of_build hn.distinct hb (fun p hp => (hother p hp).2)).trans ?_, ?_⟩
  · decide +kernel
  · decide +kernel
  · refine (exists_undescribed_iff hn.distinct hb (by decide +kernel)).mpr ?_
    exact ⟨_, mem_livePlaces.mpr ⟨top_mem_places List.mem_cons_self, rfl⟩, rfl⟩

end Context

end ComponentDoc
