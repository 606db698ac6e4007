import ComponentDoc.Proofs.Place

set_option autoImplicit false

namespace ComponentDoc

namespace LintReport

@[simp] theorem errors_append (r s : LintReport) : (r ++ s).errors = r.errors ++ s.errors := rfl

@[simp] theorem errors_onlyIf (b : Bool) (r : LintReport) :
    (onlyIf b r).errors = if b then r.errors else [] := by cases b <;> rfl

@[simp] theorem errors_error (path message : String) :
    (error path message).errors = [⟨path, message⟩] := rfl

@[simp] theorem errors_warning (path message : String) : (warning path message).errors = [] := rfl

end LintReport

namespace Schema

/-- The linter has nothing to object to a schema. -/
structure Sound (fs : List Field) : Prop extends WellNamed fs where
  plain : ∀ p ∈ places fs, p.hasChildren = true → p.declaration.options = []

theorem sound_nil : Sound [] :=
  ⟨⟨by simp, by simp [Distinct]⟩, by simp⟩

theorem sound_cons {d : Declaration} {gs fs : List Field} :
    Sound (⟨d, gs⟩ :: fs) ↔
      (isFieldName d.name = true ∧ d.name ∉ fs.map Field.name ∧ (gs ≠ [] → d.options = [])) ∧
        Sound gs ∧ Sound fs := by
  have hplain : (∀ p ∈ places (⟨d, gs⟩ :: fs), p.hasChildren = true → p.declaration.options = []) ↔
      (gs ≠ [] → d.options = []) ∧
      (∀ p ∈ places gs, p.hasChildren = true → p.declaration.options = []) ∧
      ∀ p ∈ places fs, p.hasChildren = true → p.declaration.options = [] := by
    simp only [places_cons, List.forall_mem_cons, List.forall_mem_append, List.forall_mem_map]
    simp [Place.hasChildren]
  constructor
  · intro h
    obtain ⟨hw, hp⟩ := h
    obtain ⟨hn, hd, hgs, hfs⟩ := wellNamed_cons.mp hw
    obtain ⟨ho, hpg, hpf⟩ := hplain.mp hp
    exact ⟨⟨hn, hd, ho⟩, ⟨hgs, hpg⟩, ⟨hfs, hpf⟩⟩
  · intro h
    obtain ⟨⟨hn, hd, ho⟩, ⟨hgs, hpg⟩, ⟨hfs, hpf⟩⟩ := h
    exact ⟨wellNamed_cons.mpr ⟨hn, hd, hgs, hfs⟩, hplain.mpr ⟨ho, hpg, hpf⟩⟩

theorem lintDeclaration_errors_eq_nil {path : String} {seen : List String} {d : Declaration}
    {nested : Bool} :
    (lintDeclaration path seen d nested).errors = [] ↔
      isFieldName d.name = true ∧ d.name ∉ seen ∧ (nested = true → d.options = []) := by
  simp [lintDeclaration]

theorem lintLevel_cons_errors_eq_nil {above : String} {seen : List String} {d : Declaration}
    {gs fs : List Field} :
    (lintLevel above seen (⟨d, gs⟩ :: fs)).errors = [] ↔
      (lintDeclaration (above ++ d.name) seen d (!gs.isEmpty)).errors = [] ∧
        (lintLevel (above ++ d.name ++ ".") [] gs).errors = [] ∧
        (lintLevel above (d.name :: seen) fs).errors = [] := by
  by_cases hn : d.name = ""
  · simp [lintLevel, lintField, lintDeclaration_errors_eq_nil, isFieldName, hn]
  · simp [lintLevel, lintField, hn]

theorem lintLevel_errors_eq_nil {fs : List Field} {above : String} {seen : List String} :
    (lintLevel above seen fs).errors = [] ↔ Sound fs ∧ ∀ f ∈ fs, f.name ∉ seen := by
  induction fs using Field.forest generalizing above seen with
  | nil => simpa [lintLevel] using sound_nil
  | cons d gs fs ihg ihf =>
    rw [lintLevel_cons_errors_eq_nil, lintDeclaration_errors_eq_nil, ihg, ihf, sound_cons,
      List.forall_mem_cons, Field.name_node]
    simp only [List.mem_cons, not_or, List.not_mem_nil, not_false_eq_true, implies_true, and_true,
      List.mem_map, not_exists, not_and, Bool.not_eq_true', List.isEmpty_eq_false_iff]
    constructor
    · intro h
      obtain ⟨⟨hn, hs, ho⟩, hg, hf, hseen⟩ := h
      exact ⟨⟨⟨hn, fun f hmem => (hseen f hmem).1, ho⟩, hg, hf⟩, hs,
        fun f hmem => (hseen f hmem).2⟩
    · intro h
      obtain ⟨⟨⟨hn, hd, ho⟩, hg, hf⟩, hs, hseen⟩ := h
      exact ⟨⟨hn, hs, ho⟩, hg, hf, fun f hmem => ⟨hd f hmem, hseen f hmem⟩⟩

/-- A schema is sound exactly if the linter reports no errors about its fields. -/
theorem lintFields_errors_eq_nil {fs : List Field} {above : String} :
    (lintFields above fs).errors = [] ↔ Sound fs := by
  simp [lintFields, lintLevel_errors_eq_nil]

end Schema

end ComponentDoc
