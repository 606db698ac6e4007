import ComponentDoc.Proofs.Building

set_option autoImplicit false

namespace ComponentDoc

open Schema Tiers

/-- A flattened field once the values of deprecated fields are gone. -/
def FlatField.afterSplit (f : FlatField) : FlatField :=
  if f.declaration.deprecated ∧ f.declaration.type = "" then { f with label := none } else f

namespace Tiers

variable {keep : Declaration → Bool} {fs : List Field}

theorem covers_extracted (h : Distinct fs) (v : Value) :
    Covers Value.getKey fs (extracted keep v fs) := by
  have hroot : ∀ {gs : List Field} (w : Value), Distinct gs →
      ∀ k ∈ (extracted keep w gs).childKeys, k ∈ gs.map Field.name := by
    intro gs w hgs k hk
    rw [childKeys_extracted hgs] at hk
    exact (kept_names_sublist w gs).subset hk
  constructor
  · exact hroot v h
  · intro p hp hc w hw
    have hfound : p.found (extracted keep v fs) = some w := hw
    rw [found_extracted h hp] at hfound
    cases hk : p.isKept keep with
    | false => simp [hk] at hfound
    | true =>
      rw [hk, if_pos rfl] at hfound
      obtain ⟨u, _, rfl⟩ := Option.map_eq_some_iff.mp hfound
      have hchildren : p.children.isEmpty = false := by simpa [Place.hasChildren] using hc
      have hcopied : copied keep p.children u = extracted keep u p.children := by
        simp [copied, hchildren]
      rw [hcopied]
      exact hroot u (h.beneath hp)

theorem reconcile_extracted_missing (h : Distinct fs) (v : Value) :
    (reconcile fs (extracted keep v fs)).missing = [] :=
  reconcile_missing_eq_nil.mpr (covers_extracted h v)

theorem typeName_extracted (v : Value) : (extracted keep v fs).typeName = some "object" := rfl

end Tiers

theorem Value.typeName_of_asMapping {v : Value} (h : v.asMapping.isSome = true) :
    v.typeName = some "object" := by
  have hkind : v.kind = .mapping := by simpa [isSome_asMapping] using h
  rw [typeName, hkind]
  rfl

namespace Place

variable {fs : List Field} {v : Value} {p : Place}

theorem typeName_copied (hv : Fits shownAdvanced v fs) (hp : p ∈ places fs)
    (hlive : p.isLive = true) :
    ((p.found v).map (copied shownAdvanced p.children)).bind Value.typeName =
      (p.found v).bind Value.typeName := by
  have hblocked := hv.below p hp hlive
  cases hf : p.found v with
  | none => rfl
  | some w =>
    cases hc : p.children.isEmpty with
    | true => simp [copied, hc]
    | false =>
      have hmapping : w.asMapping.isSome = true := by
        simpa [isBlocked, hasChildren, hc, hf, Option.isSome_iff_ne_none] using hblocked
      simp [copied, hc, typeName_extracted, Value.typeName_of_asMapping hmapping]

theorem flat_extracted (h : Distinct fs) (hv : Fits shownAdvanced v fs) (hp : p ∈ places fs) :
    p.flat (extracted shownAdvanced v fs) = (p.flat v).afterSplit := by
  have hfound : p.found (extracted shownAdvanced v fs) =
      if p.isKept shownAdvanced then (p.found v).map (copied shownAdvanced p.children) else none :=
    found_extracted h hp v
  cases hlive : p.isLive with
  | true =>
    have hkept : p.isKept shownAdvanced = true := hlive
    have htype := typeName_copied hv hp hlive
    rw [hkept, if_pos rfl] at hfound
    simp [flat, FlatField.afterSplit, Reconciliation.labelOf, hlive, hfound, htype]
  | false =>
    have hkept : p.isKept shownAdvanced = false := hlive
    rw [hkept] at hfound
    by_cases ht : p.declaration.type = "" <;>
      simp [flat, FlatField.afterSplit, Reconciliation.labelOf, hlive, hfound, ht]

end Place

namespace Tiers

/-- Both tiers of an example reconcile with the schema without missing paths. In the advanced tier every
field that is shown keeps its label, and a hidden field has the label of its declared type or none. -/
theorem split_revalidates {fs : List Field} {v : Value} {t : Tiers} (hne : fs ≠ []) (h : Distinct fs)
    (ht : split fs v = .ok t) :
    (reconcile fs t.advanced).missing = [] ∧ (reconcile fs t.common).missing = [] ∧
      (reconcile fs t.advanced).fields = (reconcile fs v).fields.map FlatField.afterSplit ∧
      (reconcile fs v).fields.map (·.declaration.deprecated) =
        (places fs).map (fun p => !p.isLive) := by
  obtain ⟨hfits, rfl⟩ := split_eq_ok hne h ht
  refine ⟨reconcile_extracted_missing h v, reconcile_extracted_missing h _, ?_, ?_⟩
  · rw [reconcile_fields, reconcile_fields, List.map_map]
    exact List.map_congr_left (fun p hp => Place.flat_extracted h hfits hp)
  · rw [reconcile_fields, List.map_map]
    rfl

def gatewayFields : List Field :=
  [⟨{ name := "source" }, [.common "path" "", .advanced "retries" ""]⟩,
    ⟨{ name := "legacy", deprecated := true }, [.common "host" ""]⟩]

def gatewaySample : Value :=
  .map [(.str "extra", .bool true), (.str "legacy", .map [(.str "host", .str "a")]),
    (.str "source", .tagged "file"
      (.map [(.str "retries", .int 3), (.int 7, .null), (.str "path", .str "in")]))]

theorem split_revalidates_gateway :
    ∃ t, split gatewayFields gatewaySample = .ok t ∧
      (reconcile gatewayFields t.advanced).missing = [] ∧
      (reconcile gatewayFields t.common).missing = [] ∧
      (reconcile gatewayFields t.advanced).fields.map FlatField.label =
        [some "object", some "string", some "number", none, none] := by
  have hl : (lintFields "" gatewayFields).errors = [] := by decide +kernel
  have hd : Distinct gatewayFields := (lintFields_errors_eq_nil.mp hl).distinct
  have hne : gatewayFields ≠ [] := by simp [gatewayFields]
  obtain ⟨t, ht⟩ : ∃ t, split gatewayFields gatewaySample = .ok t := ⟨_, rfl⟩
  obtain ⟨ha, hc, hfields, _⟩ := split_revalidates hne hd ht
  refine ⟨t, ht, ha, hc, ?_⟩
  rw [hfields]
  decide +kernel

end Tiers

end ComponentDoc
