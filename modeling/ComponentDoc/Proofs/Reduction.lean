import ComponentDoc.Proofs.Addressing
import ComponentDoc.Proofs.Overwriting

set_option autoImplicit false

namespace ComponentDoc

namespace Value

/-- Whatever names lead to in the smaller value they lead to in the larger one, and a mapping is there
only if one is here. -/
def Within (small large : Value) : Prop :=
  ∀ (names : List String) (w : Value), names.foldlM getKey small = some w →
    ∃ u, names.foldlM getKey large = some u ∧ (u.asMapping.isSome = true → w.asMapping.isSome = true)

theorem Within.refl (v : Value) : Within v v := fun _ w hw => ⟨w, hw, id⟩

end Value

open Schema

namespace Tiers

variable {keep keep' : Declaration → Bool}

theorem within_extracted (v : Value) (fs : List Field) : (extracted keep v fs).Within v := by
  induction fs using Field.level_induction generalizing v with
  | level fs ih =>
    intro names w hw
    cases names with
    | nil =>
      cases hw
      exact ⟨v, rfl, fun _ => rfl⟩
    | cons n ns =>
      rw [List.foldlM_cons] at hw
      obtain ⟨x, hx, hw⟩ := Option.bind_eq_some_iff.mp hw
      obtain ⟨d, gs, u, hmem, _, _, hu, rfl⟩ := exists_of_getKey_extracted hx
      have hcopied : (copied keep gs u).Within u := by
        cases gs with
        | nil => exact Value.Within.refl u
        | cons g gs => exact ih d (g :: gs) hmem u
      rw [List.foldlM_cons, hu]
      exact hcopied ns w hw

theorem firstBlocked_within {small large : Value} {fs : List Field} (hw : small.Within large)
    (hkeep : ∀ d, keep' d = true → keep d = true) (h : firstBlocked keep large fs = none) :
    firstBlocked keep' small fs = none := by
  rw [firstBlocked_eq_none] at h ⊢
  intro p hp hk
  have hkept : p.isKept keep = true := by
    rw [Place.isKept, List.all_eq_true] at hk ⊢
    exact fun d hd => hkeep d (hk d hd)
  have hlarge := h p hp hkept
  cases hc : p.children.isEmpty with
  | true => simp [Place.isBlocked, Place.hasChildren, hc]
  | false =>
    cases hf : p.found small with
    | none => simp [Place.isBlocked, hf]
    | some w =>
      obtain ⟨u, hu, hmapping⟩ := hw p.names w hf
      have hfound : p.found large = some u := hu
      have husome : u.asMapping.isSome = true := by
        simpa [Place.isBlocked, Place.hasChildren, hc, hfound, Option.isSome_iff_ne_none] using hlarge
      simpa [Place.isBlocked, hf, Option.isSome_iff_ne_none] using fun _ => hmapping husome

theorem fits_within {small large : Value} {fs : List Field} (h : Fits keep large fs)
    (hw : small.Within large) (hkeep : ∀ d, keep' d = true → keep d = true) : Fits keep' small fs := by
  constructor
  · obtain ⟨u, hu, hmapping⟩ := hw [] small rfl
    cases hu
    exact hmapping h.root
  · exact firstBlocked_eq_none.mp (firstBlocked_within hw hkeep (firstBlocked_eq_none.mpr h.below))

theorem extract_eq_ok_iff {v a : Value} {fs : List Field} :
    extract keep fs v = .ok a ↔ Fits keep v fs ∧ a = extracted keep v fs := by
  rw [extract_eq]
  constructor
  · intro h
    cases hm : v.asMapping with
    | none => simp [hm] at h
    | some es =>
      cases hb : firstBlocked keep v fs with
      | some p => simp [hm, hb] at h
      | none =>
        simp only [hm, hb, Option.isNone_some, Bool.false_eq_true, if_false, Except.ok.injEq] at h
        exact ⟨⟨by simp [hm], firstBlocked_eq_none.mp hb⟩, h.symm⟩
  · intro h
    obtain ⟨hfits, rfl⟩ := h
    rw [firstBlocked_eq_none.mpr hfits.below, if_neg]
    simpa using Option.isSome_iff_ne_none.mp hfits.root

theorem shownAdvanced_of_shownCommon {d : Declaration} (h : shownCommon d = true) :
    shownAdvanced d = true := by
  simp only [shownCommon, Bool.and_eq_true] at h
  exact h.1

theorem split_eq_advancedOf {fs : List Field} (hne : fs ≠ []) (v : Value) :
    split fs v = (advancedOf fs v).map (fun a => ⟨a, extracted shownCommon a fs⟩) := by
  have he : fs.isEmpty = false := by simpa using hne
  rw [split, he, advancedOf, extract_eq]
  cases hm : v.asMapping with
  | none => rfl
  | some es =>
    cases hb : firstBlocked shownAdvanced v fs with
    | some p => rfl
    | none =>
      have hcommon : firstBlocked shownCommon (extracted shownAdvanced v fs) fs = none :=
        firstBlocked_within (within_extracted v fs) (fun _ => shownAdvanced_of_shownCommon) hb
      have hmapping : (extracted shownAdvanced v fs).asMapping.isNone = false := rfl
      simp [commonOf, extract_eq, hcommon, hmapping, bind, Except.bind, pure, Except.pure, Except.map]

theorem split_eq_ok_iff {fs : List Field} (hne : fs ≠ []) {v : Value} {t : Tiers} :
    split fs v = .ok t ↔ Fits shownAdvanced v fs ∧
      t = ⟨extracted shownAdvanced v fs,
        extracted shownCommon (extracted shownAdvanced v fs) fs⟩ := by
  rw [split_eq_advancedOf hne, advancedOf]
  constructor
  · intro h
    cases ha : extract shownAdvanced fs v with
    | error e =>
      rw [ha] at h
      cases h
    | ok a =>
      obtain ⟨hfits, rfl⟩ := extract_eq_ok_iff.mp ha
      rw [ha] at h
      exact ⟨hfits, (Except.ok.inj h).symm⟩
  · intro h
    obtain ⟨hfits, rfl⟩ := h
    rw [extract_eq_ok_iff.mpr ⟨hfits, rfl⟩]
    rfl

end Tiers

end ComponentDoc
