import ComponentDoc.Proofs.Reduction
import ComponentDoc.Proofs.TierMembership
import ComponentDoc.Proofs.TwoTiers

set_option autoImplicit false

namespace ComponentDoc

open Schema

namespace Tiers

variable {keep : Declaration → Bool} {fs : List Field}

/-- A tier taken once more by the same test is the same tier, siblings of one name included. -/
theorem extracted_self (v : Value) (fs : List Field) :
    extracted keep (extracted keep v fs) fs = extracted keep v fs := by
  induction fs using Field.level_induction generalizing v with
  | level fs ih =>
    have hnames : (kept keep (extracted keep v fs) fs).map Prod.fst = (kept keep v fs).map Prod.fst := by
      rw [kept_names, kept_names]
      congr 1
      refine List.filter_congr (fun f hf => ?_)
      cases hk : keep f.declaration with
      | false => rfl
      | true => rw [getKey_extracted_isSome hf hk]
    have hlast : ∀ name, (kept keep (extracted keep v fs) fs).reverse.lookup name =
        (kept keep v fs).reverse.lookup name := by
      intro name
      rw [lookup_reverse_kept, lookup_reverse_kept, getKey_extracted_eq]
      cases hd : decisive keep fs name with
      | none => rfl
      | some f =>
        obtain ⟨d, gs⟩ := f
        obtain ⟨hmem, _, _⟩ := decisive_eq_some hd
        have hcopied := copied_copied (fun _ v => ih d gs hmem v)
        cases v.getKey name with
        | none => rfl
        | some w => simp [Field.children, hcopied]
    rw [extracted, Value.ofEntries_textKeyed_congr hnames hlast, ← extracted]

theorem commonOf_of_fits (h : Distinct fs) {v : Value} (hv : Fits shownAdvanced v fs) :
    commonOf fs v = .ok (extracted shownCommon (extracted shownAdvanced v fs) fs) := by
  have hcommon : Fits shownCommon v fs :=
    fits_within hv (Value.Within.refl v) (fun _ => shownAdvanced_of_shownCommon)
  rw [extracted_of_larger h (fun _ => shownAdvanced_of_shownCommon)]
  exact extract_eq_ok_iff.mpr ⟨hcommon, rfl⟩

theorem extract_smaller {keep' : Declaration → Bool} (h : Distinct fs)
    (hkeep : ∀ d, keep d = true → keep' d = true) (v : Value) :
    extract keep' fs (extracted keep v fs) = .ok (extracted keep v fs) := by
  have hkept : ∀ p ∈ places fs, p.isKept keep = true → p.isKept keep' = true :=
    fun _ hp => isKept_of_forall (fun _ _ hk => hkeep _ (Place.keep_declaration hk)) hp
  rw [extract_extracted h, extracted_extracted h hkept]

/-- Splitting the advanced tier gives the same tiers again, in the same order of entries. With siblings
of different names the common tier comes from the example directly as well, and is both tiers of
itself. -/
theorem split_idempotent {v : Value} {t : Tiers} (ht : split fs v = .ok t) :
    split fs t.advanced = .ok t ∧
      (fs ≠ [] → Distinct fs → commonOf fs v = .ok t.common ∧
        commonOf fs t.common = .ok t.common ∧ advancedOf fs t.common = .ok t.common) := by
  by_cases hne : fs = []
  · subst hne
    cases ht
    exact ⟨rfl, fun h => absurd rfl h⟩
  · obtain ⟨hfits, rfl⟩ := (split_eq_ok_iff hne).mp ht
    constructor
    · have hagain : Fits shownAdvanced (extracted shownAdvanced v fs) fs :=
        fits_within hfits (within_extracted v fs) (fun _ hd => hd)
      rw [(split_eq_ok_iff hne).mpr ⟨hagain, rfl⟩, extracted_self]
    · intro _ h
      exact ⟨commonOf_of_fits h hfits, extract_smaller h (fun _ hd => hd) _,
        extract_smaller h (fun _ => shownAdvanced_of_shownCommon) _⟩

def repeatedFields : List Field :=
  [⟨{ name := "source" }, [.common "path" "", .common "mode" ""]⟩, .common "7" "",
    ⟨{ name := "source" }, [.advanced "retries" "", .common "path" ""]⟩]

def repeatedSample : Value :=
  .map [(.int 7, .tagged "count" (.int 1)), (.str "source", .tagged "file" (.map [(.str "mode", .null),
    (.str "path", .str "in"), (.bool true, .null), (.str "retries", .int 3)]))]

theorem split_idempotent_repeated :
    (∃ t, split repeatedFields repeatedSample = .ok t ∧ split repeatedFields t.advanced = .ok t ∧
      t.advanced = .map [(.str "source", .map [(.str "retries", .int 3), (.str "path", .str "in")]),
        (.str "7", .tagged "count" (.int 1))]) ∧
    ∃ t, split pipelineFields pipelineSample = .ok t ∧
      commonOf pipelineFields pipelineSample = .ok t.common ∧
      commonOf pipelineFields t.common = .ok t.common ∧
      advancedOf pipelineFields t.common = .ok t.common := by
  constructor
  · obtain ⟨t, ht⟩ : ∃ t, split repeatedFields repeatedSample = .ok t := ⟨_, rfl⟩
    refine ⟨t, ht, (split_idempotent ht).1, ?_⟩
    cases ht
    rfl
  · obtain ⟨t, ht⟩ : ∃ t, split pipelineFields pipelineSample = .ok t := ⟨_, rfl⟩
    have hl : (lintFields "" pipelineFields).errors = [] := by decide +kernel
    have hd : Distinct pipelineFields := (lintFields_errors_eq_nil.mp hl).distinct
    exact ⟨t, ht, (split_idempotent ht).2 (by simp [pipelineFields]) hd⟩

end Tiers

end ComponentDoc
