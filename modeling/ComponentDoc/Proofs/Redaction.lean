import Mathlib.Data.List.Basic
import ComponentDoc.Proofs.Building
import ComponentDoc.Proofs.EntryChange

set_option autoImplicit false

namespace ComponentDoc

mutual

def Field.redact : Field → Field
  | ⟨d, gs⟩ =>
    if d.deprecated then .deprecated d.name else ⟨d, Schema.redact gs⟩

def Schema.redact : List Field → List Field
  | [] => []
  | f :: fs => f.redact :: Schema.redact fs

end

def Component.redact (c : Component) : Component := { c with fields := Schema.redact c.fields }

theorem Field.find_eq_some {d : Declaration} {gs fs : List Field}
    (hnodup : (fs.map Field.name).Nodup) (hmem : ⟨d, gs⟩ ∈ fs) :
    find d.name fs = some ⟨d, gs⟩ := by
  induction fs with
  | nil => cases hmem
  | cons f fs ih =>
    rw [List.map_cons, List.nodup_cons] at hnodup
    rcases List.mem_cons.mp hmem with rfl | hmem
    · simp [find]
    · have hne : f.name ≠ d.name := by
        intro h
        exact hnodup.1 (h ▸ List.mem_map_of_mem hmem)
      simpa [find, hne] using ih hnodup.2 hmem

namespace Value

mutual

/-- What an example holds beside the values of deprecated fields. -/
def redact (fs : List Field) : Value → Value
  | .map es => .map (redactEntries fs es)
  | .tagged t v => .tagged t (v.redact fs)
  | v => v

def redactEntries (fs : List Field) : List (Value × Value) → List (Value × Value)
  | [] => []
  | (k, v) :: es =>
    match k.keyText.bind (Field.find · fs) with
    | some ⟨d, gs⟩ =>
      if d.deprecated then redactEntries fs es else (k, v.redact gs) :: redactEntries fs es
    | none => (k, v) :: redactEntries fs es

end

theorem redact_eq_onEntries (fs : List Field) : ∀ v : Value,
    v.redact fs = v.onEntries (redactEntries fs)
  | .map _ => rfl
  | .tagged t v => congrArg (Value.tagged t) (redact_eq_onEntries fs v)
  | .null | .bool _ | .int _ | .float _ | .str _ | .seq _ => rfl

theorem asMapping_redact (fs : List Field) (v : Value) :
    (v.redact fs).asMapping = v.asMapping.map (redactEntries fs) := by
  rw [redact_eq_onEntries, asMapping_onEntries]

theorem typeName_redact (fs : List Field) (v : Value) : (v.redact fs).typeName = v.typeName := by
  rw [typeName, redact_eq_onEntries, kind_onEntries, typeName]

theorem redact_nil (v : Value) : v.redact [] = v := by
  have hentries : ∀ es, redactEntries [] es = es := by
    intro es
    induction es with
    | nil => rfl
    | cons e es ih =>
      obtain ⟨k, w⟩ := e
      have hnone : k.keyText.bind (Field.find · []) = none := by
        cases k.keyText <;> rfl
      rw [redactEntries, hnone, ih]
  rw [redact_eq_onEntries]
  exact onEntries_eq_self _ v (fun es _ => hentries es)

section

variable {d : Declaration} {gs fs : List Field}

theorem find_redactEntries (hfind : Field.find d.name fs = some ⟨d, gs⟩)
    (hlive : d.deprecated = false) {test : Value → Bool}
    (htest : ∀ k, test k = true → k.keyText = some d.name) (es : List (Value × Value)) :
    ((redactEntries fs es).find? (fun e => test e.1)).map Prod.snd =
      ((es.find? (fun e => test e.1)).map Prod.snd).map (redact gs) := by
  induction es with
  | nil => rfl
  | cons e es ih =>
    obtain ⟨k, v⟩ := e
    rw [redactEntries]
    cases ht : test k with
    | true =>
      have hk : k.keyText.bind (Field.find · fs) = some ⟨d, gs⟩ := by rw [htest k ht]; exact hfind
      simp [hk, hlive, ht]
    | false =>
      rw [List.find?_cons_of_neg (by simp [ht])]
      split
      · split
        · exact ih
        · rw [List.find?_cons_of_neg (by simp [ht]), ih]
      · rw [List.find?_cons_of_neg (by simp [ht]), ih]

theorem getKey_redact (hnodup : (fs.map Field.name).Nodup) (hmem : ⟨d, gs⟩ ∈ fs)
    (hlive : d.deprecated = false) (v : Value) :
    (v.redact fs).getKey d.name = (v.getKey d.name).map (redact gs) := by
  have hfind := Field.find_eq_some hnodup hmem
  rw [getKey, getKey, asMapping_redact]
  cases v.asMapping with
  | none => rfl
  | some es =>
    simp only [Option.map_some, Option.bind_some, findKey, findExact_eq_find, findText_eq_find,
      Option.map_or]
    rw [find_redactEntries hfind hlive (fun _ => keyText_of_same_str),
      find_redactEntries hfind hlive (fun k hk => beq_iff_eq.mp hk)]

end

end Value

def Place.redact (p : Place) : Place := { p with children := Schema.redact p.children }

namespace Schema

@[simp] theorem redact_nil : redact [] = [] := rfl

theorem redact_eq_map (fs : List Field) : redact fs = fs.map Field.redact := by
  induction fs with
  | nil => rfl
  | cons f fs ih => rw [redact, ih, List.map_cons]

@[simp] theorem isEmpty_redact (fs : List Field) : (redact fs).isEmpty = fs.isEmpty := by
  rw [redact_eq_map, List.isEmpty_map]

theorem redact_eq_nil {fs : List Field} : redact fs = [] ↔ fs = [] := by
  rw [redact_eq_map, List.map_eq_nil_iff]

theorem livePlaces_redact (fs : List Field) :
    livePlaces (redact fs) = (livePlaces fs).map Place.redact := by
  have hunder : ∀ (d : Declaration) (ps : List Place), d.deprecated = false →
      (ps.map (Place.under d)).filter Place.isLive =
        (ps.filter Place.isLive).map (Place.under d) := by
    intro d ps hd
    rw [List.filter_map]
    congr 2
    funext p
    simp [hd]
  unfold livePlaces
  induction fs using Field.forest with
  | nil => rfl
  | cons d gs fs ihg ihf =>
    rw [redact, Field.redact, places_cons]
    cases hd : d.deprecated with
    | true =>
      have hnone : ((places gs).map (Place.under d)).filter Place.isLive = [] := by
        simp [List.filter_eq_nil_iff, hd]
      simp [Field.deprecated, places_cons, List.filter_append, hnone, hd, ihf]
    | false =>
      simp only [Bool.false_eq_true, if_false, places_cons, List.filter_cons, List.filter_append,
        Place.isLive_top, hd, Bool.not_false, if_true, hunder d _ hd, ihg, ihf, List.map_cons,
        List.map_append, List.map_map]
      rfl

end Schema

open Schema Tiers

namespace Place

variable {fs : List Field} {p : Place}

/-- A place that is shown holds the same as before, without the deprecated parts. -/
theorem found_redact (h : Distinct fs) (hp : p ∈ places fs) (hlive : p.isLive = true) (v : Value) :
    p.found (v.redact fs) = (p.found v).map (Value.redact p.children) := by
  induction hp using places_induction generalizing v with
  | top fs d gs hmem =>
    have hd : d.deprecated = false := by simpa using hlive
    simpa using Value.getKey_redact h.1 hmem hd v
  | under fs d gs q hmem _ ih =>
    obtain ⟨hd, hq⟩ : d.deprecated = false ∧ q.isLive = true := by simpa using hlive
    rw [found_under, found_under, Value.getKey_redact h.1 hmem hd]
    cases v.getKey d.name with
    | none => rfl
    | some w => exact ih (h.children hmem) hq w

end Place

namespace Schema

theorem Fits.redact {fs : List Field} {v : Value} (h : Distinct fs)
    (hv : Fits shownAdvanced v fs) : Fits shownAdvanced (v.redact fs) fs := by
  constructor
  · rw [Value.asMapping_redact, Option.isSome_map]
    exact hv.root
  · intro p hp hk
    have hblocked := hv.below p hp hk
    rw [Place.isBlocked, Place.found_redact h hp hk]
    cases hf : p.found v with
    | none => simp
    | some w => simpa [Place.isBlocked, hf, Value.asMapping_redact] using hblocked

end Schema

namespace Tiers

variable {keep : Declaration → Bool}

section

variable (hkeep : ∀ d, keep d = true → d.deprecated = false)

include hkeep

/-- A tier without deprecated fields does not depend on what is declared about them. -/
theorem kept_redact (v : Value) (fs : List Field) : kept keep v (redact fs) = kept keep v fs := by
  induction fs using Field.forest generalizing v with
  | nil => rfl
  | cons d gs fs ihg ihf =>
    rw [redact, kept_cons, kept_cons, ihf, Field.redact, keptField_node]
    cases hd : d.deprecated with
    | true =>
      have hk : keep d = false := Bool.eq_false_iff.mpr (fun hk => by simp [hkeep d hk] at hd)
      have hname : keep { name := d.name, deprecated := true } = false :=
        Bool.eq_false_iff.mpr (fun hk => by simpa using hkeep _ hk)
      simp [Field.deprecated, keptField_node, hk, hname]
    | false =>
      have hcopied : ∀ w, copied keep (redact gs) w = copied keep gs w := by
        intro w
        rw [copied, copied, extracted, extracted, ihg, isEmpty_redact]
      rw [if_neg (by simp), keptField_node]
      simp only [hcopied]

theorem extracted_redact_fields (v : Value) (fs : List Field) :
    extracted keep v (redact fs) = extracted keep v fs := by
  rw [extracted, extracted, kept_redact hkeep]

theorem extracted_redact_value {fs : List Field} (h : Distinct fs) (v : Value) :
    extracted keep (v.redact fs) fs = extracted keep v fs := by
  induction fs using Field.level_induction generalizing v with
  | level fs ih =>
    have hcopied : ∀ d gs, ⟨d, gs⟩ ∈ fs → ∀ w, copied keep gs (w.redact gs) = copied keep gs w := by
      intro d gs hmem w
      cases gs with
      | nil => rw [Value.redact_nil]
      | cons g gs => exact ih d (g :: gs) hmem (h.children hmem) w
    refine extracted_congr (fun d gs hmem hk => ?_)
    rw [Value.getKey_redact h.1 hmem (hkeep d hk), Option.map_map]
    exact Option.map_congr (fun w _ => hcopied d gs hmem w)

end

end Tiers

end ComponentDoc
