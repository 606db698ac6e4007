import ComponentDoc.Proofs.Reduction

/-!
When an example cannot be split. A declaration with fields beneath it is in the way if the example holds
something else than a mapping there and neither it nor any above it is deprecated. Splitting fails if the
example is no mapping or some declaration is in the way, and it names the first; the second pass, from the
advanced tier to the common one, never fails.
-/

set_option autoImplicit false

namespace ComponentDoc

open Schema

/-- Fields are declared beneath a place that is shown, and what an example holds there is no mapping. -/
def Place.Obstructs (v : Value) (p : Place) : Prop :=
  (∀ d ∈ p.chain, d.deprecated = false) ∧ p.hasChildren = true ∧
    ∃ w, p.found v = some w ∧ w.asMapping = none

/-- In pre-order, the place obstructs and none before it does. -/
def Schema.FirstObstruction (fs : List Field) (v : Value) (p : Place) : Prop :=
  ∃ before after, places fs = before ++ p :: after ∧ p.Obstructs v ∧ ∀ q ∈ before, ¬ q.Obstructs v

theorem Place.obstructs_iff {v : Value} {p : Place} :
    p.Obstructs v ↔ (p.isKept Tiers.shownAdvanced && p.isBlocked v) = true := by
  simp only [Obstructs, isKept, isBlocked, Tiers.shownAdvanced, Bool.and_eq_true, List.all_eq_true,
    Bool.not_eq_true', Option.any_eq_true, Option.isNone_iff_eq_none]

namespace Schema

variable {fs : List Field} {v : Value} {p : Place}

theorem firstBlocked_eq_some :
    firstBlocked Tiers.shownAdvanced v fs = some p ↔ FirstObstruction fs v p := by
  simp only [firstBlocked, List.find?_eq_some_iff_append, FirstObstruction, Place.obstructs_iff,
    Bool.not_eq_true, Bool.not_eq_true']
  constructor
  · intro h
    obtain ⟨hp, before, after, heq, hbefore⟩ := h
    exact ⟨before, after, heq, hp, hbefore⟩
  · intro h
    obtain ⟨before, after, heq, hp, hbefore⟩ := h
    exact ⟨hp, before, after, heq, hbefore⟩

theorem FirstObstruction.mem_places (h : FirstObstruction fs v p) : p ∈ places fs := by
  obtain ⟨before, after, heq, _⟩ := h
  simp [heq]

theorem WellNamed.path_ne_root (h : WellNamed fs) (hp : p ∈ places fs) : p.path ≠ "<root>" := by
  intro hroot
  have hnames : p.names = ["<root>"] := by
    apply Path.ofNames_injective p.names_ne_nil (List.cons_ne_nil _ _) (h.no_dot hp)
    · decide
    · rw [Path.ofNames_singleton]
      exact hroot
  have hname : Schema.isFieldName "<root>" = true :=
    h.isFieldName_of_mem_names hp "<root>" (by rw [hnames]; exact List.mem_singleton_self _)
  exact absurd hname (by decide)

end Schema

namespace Tiers

variable {fs : List Field} {v : Value}

theorem split_eq_error_iff (hne : fs ≠ []) {e : SchemaError} :
    split fs v = .error e ↔
      (v.asMapping = none ∧ e = .notMapping "<root>") ∨
        (v.asMapping.isSome = true ∧ ∃ p, FirstObstruction fs v p ∧
          e = .notMapping (Path.levelName (p.path ++ "."))) := by
  simp only [← firstBlocked_eq_some]
  rw [split_eq_advancedOf hne, advancedOf, extract_eq]
  cases hm : v.asMapping with
  | none => simp [Except.map, eq_comm]
  | some es =>
    cases hb : firstBlocked shownAdvanced v fs with
    | none => simp [Except.map]
    | some p => simp [Except.map, eq_comm]

theorem fits_iff : Fits shownAdvanced v fs ↔
    v.asMapping.isSome = true ∧ ∀ p ∈ places fs, ¬ p.Obstructs v := by
  have hbelow : (∀ p ∈ places fs, p.isKept shownAdvanced = true → p.isBlocked v = false) ↔
      ∀ p ∈ places fs, ¬ p.Obstructs v := by
    simp only [Place.obstructs_iff, Bool.and_eq_true, not_and, Bool.not_eq_true]
  rw [← hbelow]
  exact ⟨fun h => ⟨h.root, h.below⟩, fun h => ⟨h.1, h.2⟩⟩

theorem exists_commonOf {a : Value} (h : advancedOf fs v = .ok a) : ∃ c, commonOf fs a = .ok c := by
  obtain ⟨hfits, rfl⟩ := extract_eq_ok_iff.mp h
  have hcommon : Fits shownCommon (extracted shownAdvanced v fs) fs :=
    fits_within hfits (within_extracted v fs) (fun _ => shownAdvanced_of_shownCommon)
  exact ⟨_, extract_eq_ok_iff.mpr ⟨hcommon, rfl⟩⟩

/-- An example is split exactly if it is a mapping and no declaration is in the way, and every failure is
one of the first pass. Without lint errors a failure names the root, if the example is no mapping, and
else the first declaration that is in the way. -/
theorem split_outcome (hne : fs ≠ []) (v : Value) :
    ((∃ t, split fs v = .ok t) ↔
        v.asMapping.isSome = true ∧ ∀ p ∈ places fs, ¬ p.Obstructs v) ∧
      (∀ a, advancedOf fs v = .ok a → ∃ c, commonOf fs a = .ok c) ∧
      ∀ e, split fs v = .error e → ∃ path, e = .notMapping path ∧
        ((lintFields "" fs).errors = [] → (path = "<root>" ↔ v.asMapping = none) ∧
          (v.asMapping.isSome = true → ∃ p, FirstObstruction fs v p ∧ path = p.path)) := by
  refine ⟨?_, fun _ => exists_commonOf, ?_⟩
  · rw [← fits_iff]
    constructor
    · intro h
      obtain ⟨t, ht⟩ := h
      exact ((split_eq_ok_iff hne).mp ht).1
    · exact fun h => ⟨_, (split_eq_ok_iff hne).mpr ⟨h, rfl⟩⟩
  · intro e he
    rcases (split_eq_error_iff hne).mp he with ⟨hnone, rfl⟩ | ⟨hsome, p, hp, rfl⟩
    · exact ⟨_, rfl, fun _ => ⟨by simp [hnone], by simp [hnone]⟩⟩
    · refine ⟨_, rfl, fun hl => ?_⟩
      have hn : WellNamed fs := (lintFields_errors_eq_nil.mp hl).toWellNamed
      have hlevel : Path.levelName (p.path ++ ".") = p.path := by
        simpa using levelName_path hn hp.mem_places ""
      rw [hlevel]
      refine ⟨iff_of_false (hn.path_ne_root hp.mem_places) ?_, fun _ => ⟨p, hp, rfl⟩⟩
      exact Option.isSome_iff_ne_none.mp hsome

def endpointFields : List Field :=
  [⟨{ name := "legacy", deprecated := true }, [.common "host" ""]⟩,
    ⟨{ name := "source" }, [⟨{ name := "tls" }, [.common "cert" ""]⟩,
      ⟨{ name := "pool", advanced := true }, [.common "size" ""]⟩]⟩,
    ⟨{ name := "sink" }, [.common "host" ""]⟩]

def endpointSample : Value :=
  .map [(.str "sink", .str "a"), (.str "legacy", .int 5),
    (.str "source", .tagged "tcp" (.map [(.str "pool", .int 3)]))]

theorem split_outcome_endpoint :
    split endpointFields endpointSample = .error (.notMapping "source.pool") ∧
      ∃ p, FirstObstruction endpointFields endpointSample p ∧ p.path = "source.pool" := by
  have hs : split endpointFields endpointSample = .error (.notMapping "source.pool") := rfl
  have hne : endpointFields ≠ [] := by simp [endpointFields]
  obtain ⟨_, _, herror⟩ := split_outcome hne endpointSample
  obtain ⟨path, heq, hpath⟩ := herror _ hs
  obtain ⟨p, hp, hpp⟩ := (hpath (by decide +kernel)).2 rfl
  cases heq
  exact ⟨hs, p, hp, hpp.symm⟩

end Tiers

end ComponentDoc
