import ComponentDoc.Proofs.Building
import ComponentDoc.Proofs.Evaluation

/-!
What becomes of a component and its example. A document fails for the first of four reasons: the
example is no mapping, a field with children holds none, a key is not declared, or a documented field
is missing or of unknown type. Where none of them applies, and everything can be written, there is a
document.
-/

set_option autoImplicit false

namespace ComponentDoc

open Schema

/-- The value has a written form. -/
def Yaml.Writable (v : Value) : Prop := ∃ text, Yaml.write v = .ok text

namespace Yaml

theorem writable_iff {v : Value} : Writable v ↔ (represent none v).isSome = true := by
  unfold Writable write
  cases represent none v <;> simp

theorem Writable.wrap {v : Value} (h : Writable v) (key : String) : Writable (Value.wrap key v) := by
  rw [writable_iff] at h ⊢
  obtain ⟨n, hn⟩ := Option.isSome_iff_exists.mp h
  simp [Value.wrap, represent, losesKey, isTagLike, representEntries, hn]

theorem Writable.wrapped {v : Value} (h : Writable v) (name root : String) :
    Writable (ExampleBlocks.wrapped name root v) := by
  unfold ExampleBlocks.wrapped
  split
  · exact h.wrap name
  · exact (h.wrap name).wrap root

end Yaml

namespace Place

/-- Nothing tells the type of a field: none is declared, its first example is missing or null, and
so is the value that it holds. -/
def isUntyped (w : Value) (p : Place) : Bool :=
  p.declaration.type == "" && p.declaration.examples.head?.all (·.kind == .null) && w.kind == .null

/-- Why a field cannot be documented, if it cannot. -/
def fault (v : Value) (p : Place) : Option SchemaError :=
  match p.found v with
  | none => some (.unrecognized p.path)
  | some w => if p.isUntyped w then some (.untyped p.path) else none

end Place

def errorOf {α : Type} : Except SchemaError α → Option SchemaError
  | .error e => some e
  | .ok _ => none

theorem errorOf_eq_some {α : Type} {x : Except SchemaError α} {e : SchemaError}
    (h : errorOf x = some e) : x = .error e := by
  cases x with
  | error e' =>
    cases h
    rfl
  | ok a => cases h

theorem errorOf_eq_none {α : Type} {x : Except SchemaError α} (h : errorOf x = none) :
    ∃ a, x = .ok a := by
  cases x with
  | error e => cases h
  | ok a => exact ⟨a, rfl⟩

/-- The first obstacle between an example and its document. -/
def Context.obstacle (fs : List Field) (full : Value) : Option SchemaError :=
  if full.asMapping.isNone then some (.notMapping "<root>")
  else match (livePlaces fs).find? (·.isBlocked full) with
    | some p => some (.notMapping p.path)
    | none =>
      if (reconcile fs full).missing ≠ [] then some (.undeclared (reconcile fs full).missing)
      else (livePlaces fs).findSome? (·.fault full)

theorem Value.typeName_eq_none {v : Value} : v.typeName = none ↔ v.kind = .null := by
  unfold typeName
  cases v.kind <;> simp [Kind.typeName]

theorem Place.isUntyped_iff {w : Value} {p : Place} :
    p.isUntyped w = true ↔ p.declaration.type = "" ∧
      (p.declaration.examples.head?.bind Value.typeName).or w.typeName = none := by
  rw [Option.or_eq_none_iff, Value.typeName_eq_none]
  cases h : p.declaration.examples.head? with
  | none => simp [isUntyped, h]
  | some v => simp [isUntyped, h, Value.typeName_eq_none, and_assoc]

theorem Schema.inferType_of_isUntyped {w : Value} {p : Place} (h : p.isUntyped w = true)
    (path : String) : inferType path p.declaration (some w) = .error (.untyped path) := by
  obtain ⟨htype, hkind⟩ := Place.isUntyped_iff.mp h
  simp [inferType, htype, hkind]

theorem Schema.inferType_of_not_isUntyped {w : Value} {p : Place} (h : p.isUntyped w = false)
    (path : String) : ∃ t, inferType path p.declaration (some w) = .ok t := by
  by_cases htype : p.declaration.type = ""
  · cases hkind : (p.declaration.examples.head?.bind Value.typeName).or w.typeName with
    | none => simp [Place.isUntyped_iff.mpr ⟨htype, hkind⟩] at h
    | some t => exact ⟨t, by simp [inferType, htype, hkind]⟩
  · exact ⟨foldType p.declaration.type, by simp [inferType, htype]⟩

namespace Context

theorem writeExamples_of_writable (path : String) {vs : List Value}
    (h : ∀ v ∈ vs, Yaml.Writable v) : ∃ texts, writeExamples path vs = .ok texts := by
  induction vs with
  | nil => exact ⟨[], rfl⟩
  | cons v vs ih =>
    obtain ⟨text, htext⟩ := (h v (by simp)).wrap path
    obtain ⟨rest, hrest⟩ := ih (fun w hw => h w (by simp [hw]))
    exact ⟨text :: rest, by rw [writeExamples, htext, hrest]; rfl⟩

theorem entry_flat (config : Config) {full : Value} {p : Place}
    (hl : full.lookup p.path = p.found full)
    (hw : ∀ v ∈ p.declaration.examples, Yaml.Writable v) :
    errorOf (entry config full (p.flat full)) = p.fault full := by
  have hpath : (p.flat full).path = p.path := rfl
  unfold entry Place.fault
  rw [hpath, hl]
  cases p.found full with
  | none => rfl
  | some w =>
    have hinfer : inferType p.path (p.flat full).declaration (some w) =
        inferType p.path p.declaration (some w) := rfl
    cases hu : p.isUntyped w with
    | true =>
      simp only [hinfer, hu, inferType_of_isUntyped hu, if_true]
      rfl
    | false =>
      obtain ⟨t, ht⟩ := inferType_of_not_isUntyped hu p.path
      obtain ⟨texts, htexts⟩ := writeExamples_of_writable p.path hw
      have hex : writeExamples p.path (p.flat full).declaration.examples = .ok texts := htexts
      simp only [hinfer, hu, ht, hex]
      rfl

theorem entries_flat (config : Config) {full : Value} {ps : List Place}
    (hl : ∀ p ∈ ps, full.lookup p.path = p.found full)
    (hw : ∀ p ∈ ps, ∀ v ∈ p.declaration.examples, Yaml.Writable v) :
    errorOf (entries config full (ps.map (Place.flat full))) = ps.findSome? (·.fault full) := by
  induction ps with
  | nil => rfl
  | cons p ps ih =>
    have hhead := entry_flat config (hl p (by simp)) (hw p (by simp))
    have htail := ih (fun q hq => hl q (by simp [hq])) (fun q hq => hw q (by simp [hq]))
    rw [List.findSome?_cons, List.map_cons, entries, ← hhead, ← htail]
    cases entry config full (p.flat full) with
    | error e => rfl
    | ok x => cases entries config full (ps.map (Place.flat full)) <;> rfl

theorem errorOf_ofExample {c : Component} {full : Value} (root : String)
    (hw : ∀ t, Tiers.split c.fields full = .ok t →
      Yaml.Writable t.advanced ∧ Yaml.Writable t.common) :
    errorOf (ExampleBlocks.ofExample c root full) = errorOf (Tiers.split c.fields full) := by
  unfold ExampleBlocks.ofExample
  cases hs : Tiers.split c.fields full with
  | error e => rfl
  | ok t =>
    obtain ⟨ha, hc⟩ := hw t hs
    obtain ⟨a, ha⟩ := ha.wrapped c.name root
    obtain ⟨b, hb⟩ := hc.wrapped c.name root
    cases hh : c.hasSchema <;> simp [bind, Except.bind, pure, Except.pure, errorOf, ha, hb]

theorem errorOf_build_eq (config : Config) (c : Component) {sample full : Value}
    (hn : sample.normalize = .ok full) :
    errorOf (build config c sample) =
      (errorOf (ExampleBlocks.ofExample c (root config c) full)).or
        (match flatFields c full with
        | .error e => some e
        | .ok flat => errorOf (entries config full (flat.filter (!·.declaration.deprecated)))) := by
  unfold build
  simp only [hn, bind, Except.bind]
  cases ExampleBlocks.ofExample c (root config c) full with
  | error e => rfl
  | ok blocks =>
    cases flatFields c full with
    | error e => rfl
    | ok flat =>
      dsimp only
      cases entries config full (flat.filter (!·.declaration.deprecated)) <;> rfl

theorem lookup_of_mem_livePlaces {fs : List Field} (hn : WellNamed fs) {full : Value}
    (hm : full.asMapping.isSome = true)
    (hb : (livePlaces fs).find? (·.isBlocked full) = none) {p : Place} (hp : p ∈ livePlaces fs) :
    full.lookup p.path = p.found full := by
  rw [← firstBlocked_shownAdvanced, firstBlocked_eq_none] at hb
  obtain ⟨hmem, hlive⟩ := mem_livePlaces.mp hp
  exact lookup_path hn ⟨hm, hb⟩ hmem hlive

theorem errorOf_build (config : Config) {c : Component} {sample full : Value}
    (hne : c.fields ≠ []) (hl : WellNamed c.fields) (hn : sample.normalize = .ok full)
    (hw : ∀ t, Tiers.split c.fields full = .ok t →
      Yaml.Writable t.advanced ∧ Yaml.Writable t.common)
    (hex : ∀ p ∈ places c.fields, ∀ v ∈ p.declaration.examples, Yaml.Writable v) :
    errorOf (build config c sample) = obstacle c.fields full := by
  rw [errorOf_build_eq config c hn, errorOf_ofExample _ hw, Tiers.split_eq hne hl.distinct,
    firstBlocked_shownAdvanced, obstacle]
  cases hm : full.asMapping with
  | none => rfl
  | some es =>
    cases hb : (livePlaces c.fields).find? (·.isBlocked full) with
    | some p =>
      have hp := (mem_livePlaces.mp (List.mem_of_find?_eq_some hb)).1
      have hlevel := levelName_path hl hp ""
      simp only [String.empty_append] at hlevel
      simp [errorOf, hlevel]
    | none =>
      rw [flatFields_eq hne]
      by_cases hmissing : (reconcile c.fields full).missing = []
      · have hlookup : ∀ p ∈ livePlaces c.fields, full.lookup p.path = p.found full :=
          fun p hp => lookup_of_mem_livePlaces hl (by simp [hm]) hb hp
        have hwritable : ∀ p ∈ livePlaces c.fields, ∀ v ∈ p.declaration.examples,
            Yaml.Writable v := fun p hp => hex p (mem_livePlaces.mp hp).1
        simp only [hmissing, if_true, filter_flat]
        simpa [errorOf] using entries_flat config hlookup hwritable
      · simp [errorOf, hmissing]

theorem exists_build (config : Config) {c : Component} {sample full : Value} {t : Tiers}
    (hne : c.fields ≠ []) (hl : WellNamed c.fields) (hn : sample.normalize = .ok full)
    (ht : Tiers.split c.fields full = .ok t) (ha : Yaml.Writable t.advanced)
    (hm : Yaml.Writable t.common)
    (hex : ∀ p ∈ places c.fields, ∀ v ∈ p.declaration.examples, Yaml.Writable v)
    (hobstacle : obstacle c.fields full = none) :
    ∃ context, build config c sample = .ok context := by
  apply errorOf_eq_none
  rw [errorOf_build config hne hl hn _ hex, hobstacle]
  intro u hu
  cases ht.symm.trans hu
  exact ⟨ha, hm⟩

def reader : Component where
  name := "reader"
  category := "sources"
  fields := [⟨{ name := "source" },
    [⟨{ name := "path", examples := [.str "in"] }, []⟩, ⟨{ name := "mode" }, []⟩]⟩]

def readerSample : Value := .map [(.str "source", .map [(.str "path", .str "in")])]

theorem write_readerSample : Yaml.write readerSample = .ok "source:\n  path: in\n" :=
  Yaml.write_eq (by decide +kernel)

theorem normalize_readerSample : readerSample.normalize = .ok readerSample := by
  have hr : Yaml.parseValue "source:\n  path: in\n" = .ok readerSample :=
    Yaml.parseValue_eq (by decide +kernel)
  exact Value.normalize_eq write_readerSample hr

/-- A component with fields and without lint errors has a document exactly if there is no obstacle,
and fails for the first obstacle otherwise: an example that is no mapping, then the first field with
children whose value is none, then all undeclared keys together, then the first documented field that
is missing or of unknown type. -/
theorem build_outcome (config : Config) (c : Component) (sample full : Value)
    (hne : c.fields ≠ []) (hl : (lintFields "" c.fields).errors = [])
    (hn : sample.normalize = .ok full)
    (hw : ∀ t, Tiers.split c.fields full = .ok t →
      Yaml.Writable t.advanced ∧ Yaml.Writable t.common)
    (hex : ∀ p ∈ places c.fields, ∀ v ∈ p.declaration.examples, Yaml.Writable v) :
    match obstacle c.fields full with
    | some e => build config c sample = .error e
    | none => ∃ context, build config c sample = .ok context := by
  have hsound := lintFields_errors_eq_nil.mp hl
  rw [← errorOf_build config hne hsound.toWellNamed hn hw hex]
  cases build config c sample with
  | error e => rfl
  | ok context => exact ⟨context, rfl⟩

theorem build_outcome_unrecognized :
    build {} reader readerSample = .error (.unrecognized "source.mode") := by
  have hsplit : Tiers.split reader.fields readerSample = .ok ⟨readerSample, readerSample⟩ := rfl
  refine build_outcome {} reader readerSample readerSample (by simp [reader]) (by decide +kernel)
    normalize_readerSample ?_ ?_
  · intro t ht
    cases hsplit.symm.trans ht
    exact ⟨⟨_, write_readerSample⟩, ⟨_, write_readerSample⟩⟩
  · have hex : Yaml.Writable (.str "in") := Yaml.writable_iff.mpr (by decide +kernel)
    simpa [reader, places_cons] using hex

end Context

end ComponentDoc
