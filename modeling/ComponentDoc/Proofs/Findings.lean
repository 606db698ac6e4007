import ComponentDoc.Proofs.Acceptance

/-!
Which declarations the linter finds fault with. A name may be no word, a name may be repeated, and
options may stand beside children. Every such fault is reported under the path of the declaration,
at any depth, as long as there is a name for each declaration on the way. A declaration without a
name is reported to the level above; what else it declares, and what stands beneath it, is passed
over.
-/

set_option autoImplicit false

namespace ComponentDoc

open Schema

/-- A declaration where it stands, with the siblings declared before it. -/
structure Site extends Place where
  earlier : List Field

/-- What may be wrong with a declaration that has a name. -/
inductive Fault where
  | invalidName
  | repeatedName
  | optionsOfParent
  deriving DecidableEq

def Fault.message : Fault → String
  | .invalidName => "invalid name"
  | .repeatedName => "declared more than once"
  | .optionsOfParent => "declares options but has children"

theorem Fault.message_injective {a b : Fault} (h : a.message = b.message) : a = b := by
  cases a <;> cases b <;> simp_all [Fault.message]

namespace Site

def under (d : Declaration) (s : Site) : Site := { s with toPlace := s.toPlace.under d }

/-- The declaration stands on a level that the schema reaches, behind the siblings before it. -/
def StandsIn (fs : List Field) (s : Site) : Prop :=
  ∃ later, Reaches fs s.above (s.earlier ++ ⟨s.declaration, s.children⟩ :: later)

/-- The declaration and all those above it have names. -/
def IsNamed (s : Site) : Prop := "" ∉ s.names

instance (s : Site) : Decidable s.IsNamed := inferInstanceAs (Decidable ("" ∉ s.names))

/-- The declaration has the fault. -/
def Offends (s : Site) : Fault → Prop
  | .invalidName => s.declaration.name ≠ "" ∧ ¬ IsWord s.declaration.name
  | .repeatedName => s.declaration.name ≠ "" ∧ s.declaration.name ∈ s.earlier.map Field.name
  | .optionsOfParent => s.children ≠ [] ∧ s.declaration.options ≠ []

/-- What is reported of a declaration beneath others that have names. Without a name of its own it
has only that reported, under the path of the declaration above. -/
def Reports (above : String) (s : Site) (f : Finding) : Prop :=
  "" ∉ s.above.map Declaration.name ∧
    if s.declaration.name = "" then
      f = ⟨Path.trimDots (above ++ s.path), "child field has an empty name"⟩
    else ∃ fault, s.Offends fault ∧ f = ⟨above ++ s.path, fault.message⟩

theorem isNamed_iff {s : Site} :
    s.IsNamed ↔ "" ∉ s.above.map Declaration.name ∧ s.declaration.name ≠ "" := by
  rw [IsNamed, Place.names, Place.chain, List.map_append, List.mem_append, not_or,
    List.map_singleton, List.mem_singleton, ne_comm]

theorem offends_under (d : Declaration) (s : Site) (fault : Fault) :
    (s.under d).Offends fault ↔ s.Offends fault := by
  cases fault <;> rfl

theorem reports_top {above : String} {d : Declaration} {gs earlier : List Field} {f : Finding} :
    Reports above ⟨.top d gs, earlier⟩ f ↔
      if d.name = "" then f = ⟨Path.trimDots above, "child field has an empty name"⟩
      else ∃ fault, Offends ⟨.top d gs, earlier⟩ fault ∧ f = ⟨above ++ d.name, fault.message⟩ := by
  have habove : (Place.top d gs).above = [] := rfl
  by_cases hname : d.name = "" <;> simp [Reports, habove, hname]

theorem reports_under {above : String} {d : Declaration} {s : Site} {f : Finding} :
    (s.under d).Reports above f ↔ d.name ≠ "" ∧ s.Reports (above ++ d.name ++ ".") f := by
  have hpath : above ++ (s.under d).path = above ++ d.name ++ "." ++ s.path := by
    have hunder : (s.under d).path = d.name ++ "." ++ s.path := Place.path_under d s.toPlace
    rw [hunder]
    simp only [String.append_assoc]
  have habove : (s.under d).above = d :: s.above := rfl
  have hdeclaration : (s.under d).declaration = s.declaration := rfl
  simp only [Reports, hpath, habove, hdeclaration, offends_under, List.map_cons, List.mem_cons,
    not_or, and_assoc, ne_comm (a := d.name), ne_eq]

theorem StandsIn.ne_nil {fs : List Field} {s : Site} (h : s.StandsIn fs) : fs ≠ [] := by
  obtain ⟨⟨above, d, gs⟩, earlier⟩ := s
  obtain ⟨later, hreach⟩ := h
  cases hreach with
  | here => simp
  | beneath hmem => exact List.ne_nil_of_mem hmem

theorem standsIn_iff {fs : List Field} {s : Site} :
    s.StandsIn fs ↔
      (∃ earlier d gs later, fs = earlier ++ ⟨d, gs⟩ :: later ∧ s = ⟨.top d gs, earlier⟩) ∨
        ∃ d gs t, ⟨d, gs⟩ ∈ fs ∧ StandsIn gs t ∧ s = t.under d := by
  constructor
  · intro h
    obtain ⟨⟨above, d, gs⟩, earlier⟩ := s
    obtain ⟨later, hreach⟩ := h
    cases hreach with
    | here => exact .inl ⟨earlier, d, gs, later, rfl, rfl⟩
    | beneath hmem _ hreach => exact .inr ⟨_, _, ⟨⟨_, d, gs⟩, earlier⟩, hmem, ⟨later, hreach⟩, rfl⟩
  · intro h
    rcases h with ⟨earlier, d, gs, later, rfl, rfl⟩ | ⟨d, gs, t, hmem, ht, rfl⟩
    · exact ⟨later, .here _⟩
    · have hne := ht.ne_nil
      obtain ⟨later, hreach⟩ := ht
      exact ⟨later, .beneath hmem hne hreach⟩

end Site

namespace Schema

def namesSeen (seen : List String) (earlier : List Field) : List String :=
  earlier.foldl (fun seen f => if f.name = "" then seen else f.name :: seen) seen

theorem mem_namesSeen {name : String} (h : name ≠ "") {seen : List String} {earlier : List Field} :
    name ∈ namesSeen seen earlier ↔ name ∈ seen ∨ name ∈ earlier.map Field.name := by
  induction earlier generalizing seen with
  | nil => simp [namesSeen]
  | cons f fs ih =>
    rw [namesSeen, List.foldl_cons, ← namesSeen, ih, List.map_cons, List.mem_cons]
    by_cases hf : f.name = ""
    · rw [if_pos hf, hf]
      simp [h]
    · rw [if_neg hf, List.mem_cons, or_left_comm, or_assoc]

theorem mem_lintLevel_errors {above : String} {seen : List String} {fs : List Field} {f : Finding} :
    f ∈ (lintLevel above seen fs).errors ↔ ∃ earlier d gs later,
      fs = earlier ++ ⟨d, gs⟩ :: later ∧
        f ∈ (lintField above (namesSeen seen earlier) ⟨d, gs⟩).errors := by
  induction fs generalizing seen with
  | nil => simp [lintLevel]
  | cons g fs ih =>
    obtain ⟨e, hs⟩ := g
    rw [lintLevel, LintReport.errors_append, List.mem_append, ih]
    constructor
    · intro h
      rcases h with h | ⟨earlier, d, gs, later, rfl, h⟩
      · exact ⟨[], e, hs, fs, rfl, h⟩
      · exact ⟨⟨e, hs⟩ :: earlier, d, gs, later, rfl, h⟩
    · intro h
      obtain ⟨earlier, d, gs, later, heq, h⟩ := h
      cases earlier with
      | nil =>
        cases heq
        exact .inl h
      | cons g earlier =>
        cases heq
        exact .inr ⟨earlier, d, gs, later, rfl, h⟩

theorem mem_lintDeclaration_errors {path : String} {earlier : List Field} {d : Declaration}
    {gs : List Field} (hname : d.name ≠ "") {f : Finding} :
    f ∈ (lintDeclaration path (namesSeen [] earlier) d (!gs.isEmpty)).errors ↔
      ∃ fault, Site.Offends ⟨.top d gs, earlier⟩ fault ∧ f = ⟨path, fault.message⟩ := by
  have hword : isFieldName d.name = false ↔ ¬ IsWord d.name := by
    rw [← isFieldName_iff, Bool.not_eq_true]
  have hseen : d.name ∈ namesSeen [] earlier ↔ d.name ∈ earlier.map Field.name := by
    simp [mem_namesSeen hname]
  have hfaults : f ∈ (lintDeclaration path (namesSeen [] earlier) d (!gs.isEmpty)).errors ↔
      (¬ IsWord d.name ∧ f = ⟨path, Fault.invalidName.message⟩) ∨
      (d.name ∈ earlier.map Field.name ∧ f = ⟨path, Fault.repeatedName.message⟩) ∨
      ((gs ≠ [] ∧ d.options ≠ []) ∧ f = ⟨path, Fault.optionsOfParent.message⟩) := by
    simp [lintDeclaration, hword, hseen, Fault.message]
  rw [hfaults]
  constructor
  · intro h
    rcases h with ⟨h, rfl⟩ | ⟨h, rfl⟩ | ⟨h, rfl⟩
    · exact ⟨.invalidName, ⟨hname, h⟩, rfl⟩
    · exact ⟨.repeatedName, ⟨hname, h⟩, rfl⟩
    · exact ⟨.optionsOfParent, h, rfl⟩
  · intro h
    obtain ⟨fault, h, rfl⟩ := h
    cases fault with
    | invalidName => exact .inl ⟨h.2, rfl⟩
    | repeatedName => exact .inr (.inl ⟨h.2, rfl⟩)
    | optionsOfParent => exact .inr (.inr ⟨h, rfl⟩)

theorem mem_lintField_errors {above : String} {earlier : List Field} {d : Declaration}
    {gs : List Field} {f : Finding} :
    f ∈ (lintField above (namesSeen [] earlier) ⟨d, gs⟩).errors ↔
      Site.Reports above ⟨.top d gs, earlier⟩ f ∨
        d.name ≠ "" ∧ f ∈ (lintFields (above ++ d.name ++ ".") gs).errors := by
  rw [lintField, Site.reports_top]
  by_cases hname : d.name = ""
  · simp [hname]
  · simp [hname, mem_lintDeclaration_errors hname, lintFields]

theorem mem_lintFields_errors {fs : List Field} {above : String} {f : Finding} :
    f ∈ (lintFields above fs).errors ↔ ∃ s : Site, s.StandsIn fs ∧ s.Reports above f := by
  induction fs using Field.level_induction generalizing above with
  | level fs ih =>
    rw [lintFields, mem_lintLevel_errors]
    constructor
    · intro h
      obtain ⟨earlier, d, gs, later, rfl, h⟩ := h
      rcases mem_lintField_errors.mp h with hreport | ⟨hname, hbelow⟩
      · exact ⟨_, ⟨later, .here _⟩, hreport⟩
      · obtain ⟨t, ht, hreport⟩ := (ih d gs (by simp)).mp hbelow
        exact ⟨t.under d, Site.standsIn_iff.mpr (.inr ⟨d, gs, t, by simp, ht, rfl⟩),
          Site.reports_under.mpr ⟨hname, hreport⟩⟩
    · intro h
      obtain ⟨s, hs, hreport⟩ := h
      rcases Site.standsIn_iff.mp hs with
        ⟨earlier, d, gs, later, rfl, rfl⟩ | ⟨d, gs, t, hmem, ht, rfl⟩
      · exact ⟨earlier, d, gs, later, rfl, mem_lintField_errors.mpr (.inl hreport)⟩
      · obtain ⟨hname, hreport⟩ := Site.reports_under.mp hreport
        have hbelow := (ih d gs hmem).mpr ⟨t, ht, hreport⟩
        obtain ⟨earlier, later, heq⟩ := List.append_of_mem hmem
        exact ⟨earlier, d, gs, later, heq, mem_lintField_errors.mpr (.inr ⟨hname, hbelow⟩)⟩

theorem mem_lintFields_errors_fault {fs : List Field} {path : String} {fault : Fault} :
    ⟨path, fault.message⟩ ∈ (lintFields "" fs).errors ↔
      ∃ s : Site, s.StandsIn fs ∧ s.IsNamed ∧ s.Offends fault ∧ s.path = path := by
  rw [mem_lintFields_errors]
  constructor
  · intro h
    obtain ⟨s, hs, habove, hreport⟩ := h
    by_cases hname : s.declaration.name = ""
    · rw [if_pos hname] at hreport
      cases fault <;> simp [Fault.message] at hreport
    · rw [if_neg hname] at hreport
      obtain ⟨other, hoffends, heq⟩ := hreport
      obtain ⟨hpath, hmessage⟩ := Finding.mk.inj heq
      rw [Fault.message_injective hmessage]
      exact ⟨s, hs, Site.isNamed_iff.mpr ⟨habove, hname⟩, hoffends, by simpa using hpath.symm⟩
  · intro h
    obtain ⟨s, hs, hnamed, hoffends, rfl⟩ := h
    obtain ⟨habove, hname⟩ := Site.isNamed_iff.mp hnamed
    refine ⟨s, hs, habove, ?_⟩
    rw [if_neg hname, String.empty_append]
    exact ⟨fault, hoffends, rfl⟩

/-- The faults of a declaration are reported if no name on the way to it is empty. Every fault of a
schema is reported under its path exactly if each one at or beneath an empty name is shared by a
declaration of the same path that has names all the way. Beyond these faults, nothing is reported
but the first empty name on a way. -/
theorem lintFields_reports (fs : List Field) :
    (∀ s : Site, s.StandsIn fs → s.IsNamed → ∀ fault, s.Offends fault →
        ⟨s.path, fault.message⟩ ∈ (lintFields "" fs).errors) ∧
      ((∀ s : Site, s.StandsIn fs → ∀ fault, s.Offends fault →
          ⟨s.path, fault.message⟩ ∈ (lintFields "" fs).errors) ↔
        ∀ s : Site, s.StandsIn fs → ¬ s.IsNamed → ∀ fault, s.Offends fault →
          ∃ t : Site, t.StandsIn fs ∧ t.IsNamed ∧ t.Offends fault ∧ t.path = s.path) ∧
      ∀ f, f ∈ (lintFields "" fs).errors ↔ ∃ s : Site, s.StandsIn fs ∧ s.Reports "" f := by
  refine ⟨?_, ?_, fun f => mem_lintFields_errors⟩
  · exact fun s hs hnamed fault hoffends =>
      mem_lintFields_errors_fault.mpr ⟨s, hs, hnamed, hoffends, rfl⟩
  · simp only [mem_lintFields_errors_fault]
    constructor
    · exact fun h s hs _ fault hoffends => h s hs fault hoffends
    · intro h s hs fault hoffends
      by_cases hnamed : s.IsNamed
      · exact ⟨s, hs, hnamed, hoffends, rfl⟩
      · exact h s hs hnamed fault hoffends

def crowdedFields : List Field :=
  [⟨{ name := "tls" }, [.common "cert.key" "",
    ⟨{ name := "mode", options := ["strict"] }, [.common "level" ""]⟩, .common "mode" ""]⟩]

theorem lintFields_reports_crowded :
    ⟨"tls.cert.key", "invalid name"⟩ ∈ (lintFields "" crowdedFields).errors ∧
      ⟨"tls.mode", "declares options but has children"⟩ ∈ (lintFields "" crowdedFields).errors ∧
      ⟨"tls.mode", "declared more than once"⟩ ∈ (lintFields "" crowdedFields).errors := by
  obtain ⟨hreported, _, _⟩ := lintFields_reports crowdedFields
  have hlevel : Reaches crowdedFields [{ name := "tls" }] _ :=
    .beneath List.mem_cons_self (List.cons_ne_nil _ _) (.here _)
  refine ⟨?_, ?_, ?_⟩
  · refine hreported ⟨⟨_, _, _⟩, []⟩ ⟨_, hlevel⟩ (by decide +kernel) .invalidName ⟨by decide, ?_⟩
    rw [← isFieldName_iff]
    decide
  · exact hreported ⟨⟨_, _, _⟩, [_]⟩ ⟨_, hlevel⟩ (by decide +kernel) .optionsOfParent
      ⟨List.cons_ne_nil _ _, List.cons_ne_nil _ _⟩
  · exact hreported ⟨⟨_, _, _⟩, [_, _]⟩ ⟨_, hlevel⟩ (by decide +kernel) .repeatedName
      ⟨by decide, by decide⟩

def namelessFields : List Field :=
  [⟨{ name := "tls" }, [⟨{ name := "" }, [.common "a b" "A key."]⟩]⟩]

theorem lintFields_passes_over_nameless :
    (lintFields "" namelessFields).errors = [⟨"tls", "child field has an empty name"⟩] ∧
      ¬ ∀ s : Site, s.StandsIn namelessFields → ∀ fault, s.Offends fault →
        ⟨s.path, fault.message⟩ ∈ (lintFields "" namelessFields).errors := by
  have herrors : (lintFields "" namelessFields).errors =
      [⟨"tls", "child field has an empty name"⟩] := by
    decide +kernel
  refine ⟨herrors, fun h => ?_⟩
  have hlevel : Reaches namelessFields [{ name := "tls" }, { name := "" }]
      [.common "a b" "A key."] :=
    .beneath List.mem_cons_self (List.cons_ne_nil _ _)
      (.beneath List.mem_cons_self (List.cons_ne_nil _ _) (.here _))
  have hword : ¬ IsWord "a b" := by
    rw [← isFieldName_iff]
    decide
  have hreported := h ⟨⟨_, _, _⟩, []⟩ ⟨[], hlevel⟩ .invalidName ⟨by decide, hword⟩
  rw [herrors] at hreported
  revert hreported
  decide +kernel

end Schema

end ComponentDoc
