import Mathlib.Logic.Basic
import ComponentDoc.Proofs.StrayEntries
import ComponentDoc.Schema.Enforce

/-!
Which components the linter accepts. A component is well formed if it has a name and a category and
if every level of its fields, however deep, is orderly: names are words over a fixed alphabet,
siblings bear different names, and no field has both children and options. The linter accepts these
components and no others, and refuses the rest with the texts of all its errors.
-/

set_option autoImplicit false

namespace ComponentDoc

namespace Schema

def IsWordLetter (c : Char) : Prop :=
  ('A' ≤ c ∧ c ≤ 'Z') ∨ ('a' ≤ c ∧ c ≤ 'z') ∨ ('0' ≤ c ∧ c ≤ '9') ∨ c = '_' ∨ c = '-'

def IsWord (s : String) : Prop := s ≠ "" ∧ ∀ c ∈ s.toList, IsWordLetter c

/-- What is asked of the fields of one level. -/
structure OrderlyLevel (fs : List Field) : Prop where
  named : ∀ f ∈ fs, IsWord f.name
  distinct : (fs.map Field.name).Nodup
  plain : ∀ f ∈ fs, f.children = [] ∨ f.declaration.options = []

end Schema

open Schema

structure Component.WellFormed (c : Component) : Prop where
  name : c.name ≠ ""
  category : c.category ≠ ""
  levels : ∀ ds fs, Reaches c.fields ds fs → OrderlyLevel fs

namespace Schema

theorem isNameChar_iff {c : Char} : isNameChar c = true ↔ IsWordLetter c := by
  have hupper : c.isUpper = decide ('A' ≤ c ∧ c ≤ 'Z') := rfl
  have hlower : c.isLower = (decide ('a' ≤ c) && decide (c ≤ 'z')) := rfl
  have hdigit : c.isDigit = (decide ('0' ≤ c) && decide (c ≤ '9')) := rfl
  have halphanum : c.isAlphanum = (c.isUpper || c.isLower || c.isDigit) := rfl
  simp only [isNameChar, halphanum, hupper, hlower, hdigit, Bool.or_eq_true, Bool.and_eq_true,
    decide_eq_true_eq, beq_iff_eq, or_assoc, IsWordLetter]

theorem isFieldName_iff {s : String} : isFieldName s = true ↔ IsWord s := by
  simp [isFieldName, IsWord, isNameChar_iff]

example : ¬ IsWord "path\n" := by
  rw [← isFieldName_iff]
  decide

theorem orderlyLevel_cons {d : Declaration} {gs fs : List Field} :
    OrderlyLevel (⟨d, gs⟩ :: fs) ↔
      (isFieldName d.name = true ∧ d.name ∉ fs.map Field.name ∧ (gs ≠ [] → d.options = [])) ∧
        OrderlyLevel fs := by
  have hplain : (gs = [] ∨ d.options = []) ↔ (gs ≠ [] → d.options = []) := or_iff_not_imp_left
  rw [isFieldName_iff, ← hplain]
  constructor
  · intro h
    obtain ⟨hnamed, hdistinct, hoptions⟩ := h
    rw [List.forall_mem_cons] at hnamed hoptions
    rw [List.map_cons, List.nodup_cons] at hdistinct
    exact ⟨⟨hnamed.1, hdistinct.1, hoptions.1⟩, hnamed.2, hdistinct.2, hoptions.2⟩
  · intro h
    obtain ⟨⟨hname, hnew, hoption⟩, hnamed, hdistinct, hoptions⟩ := h
    exact ⟨List.forall_mem_cons.mpr ⟨hname, hnamed⟩, List.nodup_cons.mpr ⟨hnew, hdistinct⟩,
      List.forall_mem_cons.mpr ⟨hoption, hoptions⟩⟩

theorem sound_iff_level {fs : List Field} :
    Sound fs ↔ OrderlyLevel fs ∧ ∀ d gs, ⟨d, gs⟩ ∈ fs → Sound gs := by
  induction fs with
  | nil => simp [sound_nil, OrderlyLevel.mk]
  | cons f fs ih =>
    obtain ⟨d, gs⟩ := f
    rw [sound_cons, orderlyLevel_cons, ih]
    constructor
    · intro h
      obtain ⟨hfield, hgs, hlevel, hbelow⟩ := h
      refine ⟨⟨hfield, hlevel⟩, fun e hs hmem => ?_⟩
      rcases List.mem_cons.mp hmem with heq | hmem
      · cases heq
        exact hgs
      · exact hbelow e hs hmem
    · intro h
      obtain ⟨⟨hfield, hlevel⟩, hbelow⟩ := h
      exact ⟨hfield, hbelow d gs List.mem_cons_self, hlevel,
        fun e hs hmem => hbelow e hs (List.mem_cons_of_mem _ hmem)⟩

theorem sound_iff_levels {fs : List Field} :
    Sound fs ↔ ∀ ds gs, Reaches fs ds gs → OrderlyLevel gs := by
  constructor
  · intro h ds gs hreach
    induction hreach with
    | here fs => exact (sound_iff_level.mp h).1
    | beneath hmem _ _ ih => exact ih ((sound_iff_level.mp h).2 _ _ hmem)
  · intro h
    induction fs using Field.level_induction with
    | level fs ih =>
      refine sound_iff_level.mpr ⟨h [] fs (.here fs), fun d gs hmem => ?_⟩
      by_cases hgs : gs = []
      · rw [hgs]
        exact sound_nil
      · exact ih d gs hmem (fun ds hs hreach => h (d :: ds) hs (.beneath hmem hgs hreach))

theorem lint_errors_eq_nil {c : Component} : (lint c).errors = [] ↔ c.WellFormed := by
  have hparts : (lint c).errors = [] ↔ c.name ≠ "" ∧ c.category ≠ "" ∧ Sound c.fields := by
    simp [lint, lintFields_errors_eq_nil]
  rw [hparts, sound_iff_levels]
  constructor
  · exact fun h => ⟨h.1, h.2.1, h.2.2⟩
  · exact fun h => ⟨h.name, h.category, h.levels⟩

/-- The linter accepts exactly the well-formed components. It refuses any other with the texts of
all its errors, in the order of the report. -/
theorem enforce_outcome (c : Component) :
    ((∃ report, enforce c = .ok report) ↔ c.WellFormed) ∧
      ((lint c).isValid = true ↔ c.WellFormed) ∧
      (∀ report, enforce c = .ok report → report = lint c) ∧
      ∀ e, enforce c = .error e →
        (lint c).errors ≠ [] ∧ e = .invalidSchema c.name ((lint c).errors.map Finding.text) := by
  have hvalid : (lint c).isValid = true ↔ c.WellFormed := by
    rw [LintReport.isValid, List.isEmpty_iff, lint_errors_eq_nil]
  unfold enforce
  cases h : (lint c).isValid with
  | true => simpa [h] using hvalid
  | false =>
    have herrors : (lint c).errors ≠ [] := by simpa [LintReport.isValid] using h
    have hfailed : ¬ c.WellFormed := by simpa [h] using hvalid
    simp [hfailed, herrors, eq_comm]

end Schema

end ComponentDoc
