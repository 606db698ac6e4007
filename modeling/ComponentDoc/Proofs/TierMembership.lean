import ComponentDoc.Proofs.Building

set_option autoImplicit false

namespace ComponentDoc

open Schema Tiers

/-- A level of a tier beside the level of the example that it comes from: a mapping without a tag whose
keys are the names of the fields that are selected and there, in the order of the declarations. -/
def LevelSelected (keep : Declaration → Bool) (fs : List Field) (level tier : Value) : Prop :=
  ∃ es, tier = .map (Value.textKeyed es) ∧
    es.map Prod.fst =
      (fs.filter (fun f => keep f.declaration && (level.getKey f.name).isSome)).map Field.name

/-- A tier holds the selected part of an example: what stands at the places all of whose declarations
pass a test, level by level. -/
structure Selects (keep : Declaration → Bool) (fs : List Field) (v tier : Value) : Prop where
  root : LevelSelected keep fs v tier
  resolves : ∀ p ∈ places fs, (p.found tier).isSome = true ↔
    (p.found v).isSome = true ∧ ∀ d ∈ p.chain, keep d = true
  leaf : ∀ p ∈ places fs, p.hasChildren = false → ∀ w, p.found tier = some w → p.found v = some w
  below : ∀ p ∈ places fs, p.hasChildren = true → ∀ w, p.found tier = some w →
    ∃ u, p.found v = some u ∧ LevelSelected keep p.children u w

namespace Tiers

variable {keep keep' : Declaration → Bool} {fs : List Field}

theorem kept_names (keep : Declaration → Bool) (v : Value) (fs : List Field) :
    (kept keep v fs).map Prod.fst =
      (fs.filter (fun f => keep f.declaration && (v.getKey f.name).isSome)).map Field.name := by
  induction fs with
  | nil => rfl
  | cons f fs ih =>
    obtain ⟨d, gs⟩ := f
    have hd : Field.declaration ⟨d, gs⟩ = d := rfl
    rw [kept_cons, keptField_node, List.map_append, ih, List.filter_cons, hd, Field.name_node]
    cases keep d with
    | false => simp
    | true => cases v.getKey d.name <;> simp

theorem levelSelected_extracted (h : Distinct fs) (keep : Declaration → Bool) (v : Value) :
    LevelSelected keep fs v (extracted keep v fs) :=
  ⟨kept keep v fs, extracted_eq_map h v, kept_names keep v fs⟩

theorem selects_extracted (h : Distinct fs) (keep : Declaration → Bool) (v : Value) :
    Selects keep fs v (extracted keep v fs) := by
  have hfound : ∀ p ∈ places fs, ∀ w, p.found (extracted keep v fs) = some w →
      ∃ u, p.found v = some u ∧ copied keep p.children u = w := by
    intro p hp w hw
    rw [found_extracted h hp] at hw
    split at hw
    · exact Option.map_eq_some_iff.mp hw
    · cases hw
  constructor
  · exact levelSelected_extracted h keep v
  · intro p hp
    have hchain : p.isKept keep = true ↔ ∀ d ∈ p.chain, keep d = true := List.all_eq_true
    rw [found_extracted h hp, ← hchain]
    cases p.isKept keep <;> simp
  · intro p hp hc w hw
    obtain ⟨u, hu, rfl⟩ := hfound p hp w hw
    have hleaf : p.children.isEmpty = true := by simpa [Place.hasChildren] using hc
    rw [copied, if_pos hleaf, hu]
  · intro p hp hc w hw
    obtain ⟨u, hu, rfl⟩ := hfound p hp w hw
    have hparent : ¬ p.children.isEmpty = true := by simpa [Place.hasChildren] using hc
    refine ⟨u, hu, ?_⟩
    rw [copied, if_neg hparent]
    exact levelSelected_extracted (h.beneath hp) keep u

theorem extracted_of_larger (h : Distinct fs) (hkeep : ∀ d, keep' d = true → keep d = true)
    (v : Value) : extracted keep' (extracted keep v fs) fs = extracted keep' v fs := by
  induction fs using Field.level_induction generalizing v with
  | level fs ih =>
    have hcopied : ∀ d gs, ⟨d, gs⟩ ∈ fs → ∀ w,
        copied keep' gs (copied keep gs w) = copied keep' gs w := by
      intro d gs hmem w
      cases gs with
      | nil => rfl
      | cons g gs => exact ih d (g :: gs) hmem (h.children hmem) w
    refine extracted_congr (fun d gs hmem hd => ?_)
    rw [getKey_extracted h hmem, if_pos (hkeep d hd), Option.map_map]
    exact Option.map_congr (fun w _ => hcopied d gs hmem w)

/-- The advanced tier selects the declarations that are not deprecated, the common tier those that are
not advanced either, each along the whole way from the root of the example. -/
theorem split_selects {v : Value} {t : Tiers} (hne : fs ≠ []) (h : Distinct fs)
    (ht : split fs v = .ok t) :
    Selects (fun d => !d.deprecated) fs v t.advanced ∧
      Selects (fun d => !d.deprecated && !d.advanced) fs v t.common := by
  obtain ⟨_, rfl⟩ := split_eq_ok hne h ht
  have hcommon : extracted shownCommon (extracted shownAdvanced v fs) fs = extracted shownCommon v fs := by
    apply extracted_of_larger h
    intro d hd
    simp only [shownCommon, Bool.and_eq_true] at hd
    exact hd.1
  refine ⟨selects_extracted h shownAdvanced v, ?_⟩
  simp only [hcommon]
  exact selects_extracted h shownCommon v

def pipelineFields : List Field :=
  [⟨{ name := "source" }, [.common "path" "", .advanced "retries" "", .deprecated "legacy"]⟩,
    ⟨{ name := "sink", advanced := true }, [.common "host" ""]⟩]

def pipelineSample : Value :=
  .map [(.str "sink", .map [(.str "host", .str "a")]),
    (.str "source", .tagged "file" (.map [(.str "legacy", .null), (.str "retries", .int 3),
      (.int 7, .null), (.str "path", .tagged "local" (.str "in"))]))]

theorem split_selects_pipeline :
    ∃ t es, split pipelineFields pipelineSample = .ok t ∧
      t.advanced = .map (Value.textKeyed es) ∧ es.map Prod.fst = ["source", "sink"] ∧
      (["source", "path"].foldlM Value.getKey t.common).isSome = true ∧
      ["source", "retries"].foldlM Value.getKey t.common = none ∧
      ["sink", "host"].foldlM Value.getKey t.common = none := by
  have hl : (lintFields "" pipelineFields).errors = [] := by decide +kernel
  have hd : Distinct pipelineFields := (lintFields_errors_eq_nil.mp hl).distinct
  obtain ⟨t, ht⟩ : ∃ t, split pipelineFields pipelineSample = .ok t := ⟨_, rfl⟩
  obtain ⟨ha, hc⟩ := split_selects (by simp [pipelineFields]) hd ht
  obtain ⟨es, hes, hkeys⟩ := ha.root
  have hpath : (Place.top { name := "path" } []).under { name := "source" } ∈ places pipelineFields :=
    under_mem_places (.head _) (top_mem_places (.head _))
  have hretries : (Place.top { name := "retries", advanced := true } []).under { name := "source" } ∈
      places pipelineFields :=
    under_mem_places (.head _) (top_mem_places (.tail _ (.head _)))
  have hsink : (Place.top { name := "host" } []).under { name := "sink", advanced := true } ∈
      places pipelineFields :=
    under_mem_places (.tail _ (.head _)) (top_mem_places (List.mem_singleton_self _))
  refine ⟨t, es, ht, hes, hkeys, ?_, ?_, ?_⟩
  · exact (hc.resolves _ hpath).mpr ⟨rfl, by decide⟩
  · rw [← Option.not_isSome_iff_eq_none]
    intro hsome
    have hchain := ((hc.resolves _ hretries).mp hsome).2
    exact absurd hchain (by decide)
  · rw [← Option.not_isSome_iff_eq_none]
    intro hsome
    have hchain := ((hc.resolves _ hsink).mp hsome).2
    exact absurd hchain (by decide)

end Tiers

end ComponentDoc
