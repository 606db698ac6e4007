import ComponentDoc.Proofs.Keys
import ComponentDoc.Proofs.Linting
import ComponentDoc.Tiers

/-!
What a tier takes from an example. Extraction fails at the first kept field, in pre-order, that has
children but no mapping; otherwise it copies exactly the kept fields that are there. What it has copied
fits the schema again, so that a tier taken from a tier cannot fail.
-/

set_option autoImplicit false

namespace ComponentDoc

namespace Schema

/-- The first kept place with children whose value is no mapping. -/
def firstBlocked (keep : Declaration → Bool) (v : Value) (fs : List Field) : Option Place :=
  (places fs).find? (fun p => p.isKept keep && p.isBlocked v)

end Schema

namespace Tiers

mutual

def keptField (keep : Declaration → Bool) (v : Value) : Field → List (String × Value)
  | ⟨d, gs⟩ =>
    if keep d then
      (v.getKey d.name).toList.map (fun w =>
        (d.name, if gs.isEmpty then w else .ofEntries (Value.textKeyed (kept keep w gs))))
    else []

def kept (keep : Declaration → Bool) (v : Value) : List Field → List (String × Value)
  | [] => []
  | f :: fs => keptField keep v f ++ kept keep v fs

end

/-- The mapping of a level's kept fields. -/
def extracted (keep : Declaration → Bool) (v : Value) (fs : List Field) : Value :=
  .ofEntries (Value.textKeyed (kept keep v fs))

/-- What a field copies of its value: all of it, unless fields are declared beneath. -/
def copied (keep : Declaration → Bool) (fs : List Field) (v : Value) : Value :=
  if fs.isEmpty then v else extracted keep v fs

end Tiers

open Schema

namespace Place

variable (d : Declaration) (gs : List Field) (p : Place) (v : Value)

theorem isBlocked_top :
    (top d gs).isBlocked v = (!gs.isEmpty && (v.getKey d.name).any (fun w => w.asMapping.isNone)) := by
  simp [isBlocked, hasChildren]

theorem isBlocked_under :
    (p.under d).isBlocked v = (v.getKey d.name).any (fun w => p.isBlocked w) := by
  cases h : v.getKey d.name <;> simp [isBlocked, h]

end Place

namespace Schema

variable {keep : Declaration → Bool}

theorem firstBlocked_cons (d : Declaration) (gs fs : List Field) (v : Value) :
    firstBlocked keep v (⟨d, gs⟩ :: fs) =
      (if keep d then
        (v.getKey d.name).bind (fun w =>
          if gs.isEmpty then none
          else if w.asMapping.isNone then some (.top d gs)
          else (firstBlocked keep w gs).map (Place.under d))
        else none).or (firstBlocked keep v fs) := by
  simp only [firstBlocked, places_cons, List.find?_cons, List.find?_append, List.find?_map,
    Function.comp_def, Place.isKept_top, Place.isKept_under, Place.isBlocked_top,
    Place.isBlocked_under]
  have hnone : (places gs).find? (fun _ => false) = none := List.find?_eq_none.mpr (by simp)
  cases hk : keep d with
  | false => simp [hnone]
  | true =>
    cases hg : v.getKey d.name with
    | none => simp [hnone]
    | some w =>
      cases gs with
      | nil => simp
      | cons g gs => cases hm : w.asMapping <;> simp [hm]

theorem firstBlocked_shownAdvanced (v : Value) (fs : List Field) :
    firstBlocked Tiers.shownAdvanced v fs = (livePlaces fs).find? (·.isBlocked v) := by
  rw [livePlaces, List.find?_filter, firstBlocked]
  congr 1
  funext p
  rw [Bool.decide_and, Bool.decide_eq_true, Bool.decide_eq_true]
  rfl

end Schema

namespace Tiers

variable {keep : Declaration → Bool}

theorem keptField_node (d : Declaration) (gs : List Field) (v : Value) :
    keptField keep v ⟨d, gs⟩ =
      if keep d then (v.getKey d.name).toList.map (fun w => (d.name, copied keep gs w)) else [] := rfl

theorem keptField_eq (d : Declaration) (gs : List Field) (v : Value) :
    keptField keep v ⟨d, gs⟩ =
      if keep d then ((v.getKey d.name).map (copied keep gs)).toList.map (Prod.mk d.name) else [] := by
  rw [keptField_node]
  cases v.getKey d.name <;> rfl

theorem kept_cons (f : Field) (fs : List Field) (v : Value) :
    kept keep v (f :: fs) = keptField keep v f ++ kept keep v fs := rfl

theorem kept_eq_flatMap (v : Value) (fs : List Field) :
    kept keep v fs = fs.flatMap (keptField keep v) := by
  induction fs with
  | nil => rfl
  | cons f fs ih => rw [kept_cons, ih, List.flatMap_cons]

theorem extracted_congr {v w : Value} {fs : List Field}
    (h : ∀ d gs, ⟨d, gs⟩ ∈ fs → keep d = true →
      (v.getKey d.name).map (copied keep gs) = (w.getKey d.name).map (copied keep gs)) :
    extracted keep v fs = extracted keep w fs := by
  have hkept : kept keep v fs = kept keep w fs := by
    induction fs with
    | nil => rfl
    | cons f fs ih =>
      obtain ⟨d, gs⟩ := f
      have hfield : keptField keep v ⟨d, gs⟩ = keptField keep w ⟨d, gs⟩ := by
        rw [keptField_eq, keptField_eq]
        cases hk : keep d with
        | false => rfl
        | true => rw [h d gs List.mem_cons_self hk]
      rw [kept_cons, kept_cons, hfield, ih (fun d gs hmem => h d gs (List.mem_cons_of_mem _ hmem))]
  rw [extracted, hkept, extracted]

theorem mem_kept {v : Value} {fs : List Field} {e : String × Value} (h : e ∈ kept keep v fs) :
    ∃ d gs w, ⟨d, gs⟩ ∈ fs ∧ keep d = true ∧ v.getKey d.name = some w ∧
      e = (d.name, copied keep gs w) := by
  rw [kept_eq_flatMap] at h
  obtain ⟨⟨d, gs⟩, hmem, he⟩ := List.mem_flatMap.mp h
  rw [keptField_node] at he
  cases hk : keep d with
  | false => simp [hk] at he
  | true =>
    rw [if_pos hk] at he
    obtain ⟨w, hw, rfl⟩ := List.mem_map.mp he
    exact ⟨d, gs, w, hmem, hk, by simpa using hw, rfl⟩

theorem extractFields_eq (above : String) (v : Value) (fs : List Field) :
    extractFields keep above v fs =
      match firstBlocked keep v fs with
      | some p => .error (.notMapping (Path.levelName (above ++ p.path ++ ".")))
      | none => .ok (Value.textKeyed (kept keep v fs)) := by
  induction fs using Field.forest generalizing above v with
  | nil => rfl
  | cons d gs fs ihg ihf =>
    rw [extractFields, extractField, ihf, firstBlocked_cons, kept_cons, keptField_node]
    cases hk : keep d with
    | false => cases firstBlocked keep v fs <;> rfl
    | true =>
      cases hg : v.getKey d.name with
      | none => cases firstBlocked keep v fs <;> rfl
      | some w =>
        by_cases he : gs.isEmpty
        · cases firstBlocked keep v fs <;> simp [he, copied, bind, Except.bind, pure, Except.pure]
        · cases hm : w.asMapping with
          | none => simp [he, hm, bind, Except.bind]
          | some es =>
            cases hb : firstBlocked keep w gs with
            | some q => simp [he, hm, hb, ihg, bind, Except.bind, Except.map, String.append_assoc]
            | none =>
              cases firstBlocked keep v fs <;>
                simp [he, hm, hb, ihg, copied, extracted, bind, Except.bind, pure, Except.pure,
                  Except.map]

theorem extract_eq (fs : List Field) (v : Value) :
    extract keep fs v =
      if v.asMapping.isNone then .error (.notMapping "<root>")
      else match firstBlocked keep v fs with
        | some p => .error (.notMapping (Path.levelName (p.path ++ ".")))
        | none => .ok (extracted keep v fs) := by
  rw [extract, extractFields_eq, Path.levelName_root]
  cases firstBlocked keep v fs <;> simp [Except.map, extracted]

theorem keptField_names_sublist (v : Value) (f : Field) :
    ((keptField keep v f).map Prod.fst).Sublist [f.name] := by
  obtain ⟨d, gs⟩ := f
  rw [keptField_node]
  split
  · cases v.getKey d.name <;> simp
  · simp

theorem kept_names_sublist (v : Value) (fs : List Field) :
    ((kept keep v fs).map Prod.fst).Sublist (fs.map Field.name) := by
  induction fs with
  | nil => exact List.Sublist.refl []
  | cons f fs ih =>
    rw [kept_cons, List.map_append, List.map_cons]
    exact (keptField_names_sublist v f).append ih

theorem extracted_eq_map {fs : List Field} (h : Distinct fs) (v : Value) :
    extracted keep v fs = .map (Value.textKeyed (kept keep v fs)) :=
  Value.ofEntries_textKeyed (h.1.sublist (kept_names_sublist v fs))

theorem extracted_keys {fs : List Field} (h : Distinct fs) (v : Value) :
    ∃ es, extracted keep v fs = .map es ∧
      ∀ e ∈ es, ∃ d gs, ⟨d, gs⟩ ∈ fs ∧ keep d = true ∧ e.1 = .str d.name := by
  refine ⟨Value.textKeyed (kept keep v fs), extracted_eq_map h v, ?_⟩
  intro e he
  obtain ⟨k, hk, rfl⟩ := List.mem_map.mp he
  obtain ⟨d, gs, _, hmem, hkeep, _, rfl⟩ := mem_kept hk
  exact ⟨d, gs, hmem, hkeep, rfl⟩

theorem childKeys_extracted {fs : List Field} (h : Distinct fs) (v : Value) :
    (extracted keep v fs).childKeys = (kept keep v fs).map Prod.fst := by
  rw [extracted_eq_map h, Value.childKeys_textKeyed]

theorem lookup_eq_none_of_notMem {name : String} {es : List (String × Value)} {names : List String}
    (hs : (es.map Prod.fst).Sublist names) (h : name ∉ names) : es.lookup name = none := by
  rw [List.lookup_eq_none_iff]
  intro e he
  have hmem : e.1 ∈ names := hs.subset (List.mem_map_of_mem he)
  exact bne_iff_ne.mpr (fun hn => h (hn ▸ hmem))

theorem lookup_kept {d : Declaration} {gs fs : List Field} (h : (fs.map Field.name).Nodup)
    (hmem : ⟨d, gs⟩ ∈ fs) (v : Value) :
    (kept keep v fs).lookup d.name =
      if keep d then (v.getKey d.name).map (copied keep gs) else none := by
  induction fs with
  | nil => cases hmem
  | cons f fs ih =>
    rw [List.map_cons, List.nodup_cons] at h
    rw [kept_cons, List.lookup_append]
    rcases List.mem_cons.mp hmem with rfl | hmem
    · have htail : (kept keep v fs).lookup d.name = none :=
        lookup_eq_none_of_notMem (kept_names_sublist v fs) h.1
      rw [htail, Option.or_none, keptField_node]
      split
      · cases v.getKey d.name <;> simp
      · rfl
    · have hne : d.name ∉ [f.name] := by
        rw [List.mem_singleton]
        intro hd
        exact h.1 (hd ▸ List.mem_map_of_mem hmem)
      rw [lookup_eq_none_of_notMem (keptField_names_sublist v f) hne, Option.none_or, ih h.2 hmem]

theorem getKey_extracted {d : Declaration} {gs fs : List Field} (h : Distinct fs)
    (hmem : ⟨d, gs⟩ ∈ fs) (v : Value) :
    (extracted keep v fs).getKey d.name =
      if keep d then (v.getKey d.name).map (copied keep gs) else none := by
  rw [extracted_eq_map h, Value.getKey_textKeyed, lookup_kept h.1 hmem]

/-- A tier holds, at every kept place, what that place copies, and nothing at any other. -/
theorem found_extracted {fs : List Field} (h : Distinct fs) {p : Place} (hp : p ∈ places fs)
    (v : Value) :
    p.found (extracted keep v fs) =
      if p.isKept keep then (p.found v).map (copied keep p.children) else none := by
  induction hp using places_induction generalizing v with
  | top fs d gs hmem => simpa using getKey_extracted h hmem v
  | under fs d gs q hmem hq ih =>
    have hgs : gs.isEmpty = false := by
      cases gs with
      | nil => cases hq
      | cons g gs => rfl
    rw [Place.found_under, Place.found_under, getKey_extracted h hmem, Place.isKept_under,
      Place.children_under]
    cases keep d with
    | false => simp
    | true =>
      cases v.getKey d.name with
      | none => simp
      | some w => simpa [copied, hgs] using ih (h.children hmem) w

theorem isBlocked_extracted {fs : List Field} (h : Distinct fs) {p : Place} (hp : p ∈ places fs)
    (v : Value) : p.isBlocked (extracted keep v fs) = false := by
  rw [Place.isBlocked, found_extracted h hp]
  cases hc : p.children.isEmpty with
  | true => simp [Place.hasChildren, hc]
  | false =>
    cases p.isKept keep with
    | false => simp
    | true => cases p.found v <;> simp [copied, hc, extracted, Value.ofEntries, Value.asMapping]

theorem firstBlocked_extracted {fs : List Field} (h : Distinct fs) (keep' : Declaration → Bool)
    (v : Value) : firstBlocked keep' (extracted keep v fs) fs = none := by
  rw [firstBlocked, List.find?_eq_none]
  intro p hp
  simp [isBlocked_extracted h hp]

theorem extract_extracted {fs : List Field} (h : Distinct fs) (keep' : Declaration → Bool)
    (v : Value) :
    extract keep' fs (extracted keep v fs) = .ok (extracted keep' (extracted keep v fs) fs) := by
  rw [extract_eq, firstBlocked_extracted h]
  simp [extracted, Value.ofEntries, Value.asMapping]

/-- Both tiers of an example, or the first field that stands in their way. -/
theorem split_eq {fs : List Field} (hne : fs ≠ []) (h : Distinct fs) (v : Value) :
    split fs v =
      if v.asMapping.isNone then .error (.notMapping "<root>")
      else match firstBlocked shownAdvanced v fs with
        | some p => .error (.notMapping (Path.levelName (p.path ++ ".")))
        | none =>
          .ok ⟨extracted shownAdvanced v fs,
            extracted shownCommon (extracted shownAdvanced v fs) fs⟩ := by
  have he : fs.isEmpty = false := by simpa using hne
  rw [split, advancedOf, extract_eq, he]
  cases hm : v.asMapping with
  | none => rfl
  | some es =>
    cases hb : firstBlocked shownAdvanced v fs with
    | some p => rfl
    | none => simp [commonOf, extract_extracted h, bind, Except.bind, pure, Except.pure]

end Tiers

end ComponentDoc
