import Mathlib.Data.List.Find
import ComponentDoc.Proofs.Extraction
import ComponentDoc.Reconciliation

set_option autoImplicit false

namespace ComponentDoc

open Schema Reconciliation

namespace Value

/-- Among the values that satisfy a condition, access does not see the change. A mapping that is put
together under strings is changed by changing each of the values in it. -/
structure Transparent (P : Value → Prop) (change : Value → Value) : Prop where
  kind {v : Value} : P v → (change v).kind = v.kind
  childKeys {v : Value} : P v → (change v).childKeys = v.childKeys
  step {v : Value} (segment : List Char) :
    P v → (change v).step segment = (v.step segment).map change
  below {v w : Value} {segment : List Char} : P v → v.step segment = some w → P w
  ofEntries (es : List (String × Value)) :
    change (.ofEntries (textKeyed es)) = .ofEntries (textKeyed (es.map (fun e => (e.1, change e.2))))

end Value

namespace Value.Transparent

variable {P : Value → Prop} {change : Value → Value} {v w : Value}

section Access

variable (h : Transparent P change)

include h

theorem isNone_asMapping (hv : P v) : (change v).asMapping.isNone = v.asMapping.isNone :=
  isNone_asMapping_congr (h.kind hv)

theorem getKey (hv : P v) (name : String) :
    (change v).getKey name = (v.getKey name).map change := by
  have hmapping := h.isNone_asMapping hv
  cases hm : v.asMapping with
  | none =>
    rw [hm, Option.isNone_none, Option.isNone_iff_eq_none] at hmapping
    simp [Value.getKey, hm, hmapping]
  | some es =>
    rw [hm, Option.isNone_some, Option.isNone_eq_false_iff] at hmapping
    rw [← step_eq_getKey hmapping, ← step_eq_getKey (by simp [hm]), h.step _ hv]

theorem of_getKey (hv : P v) {name : String} (hw : v.getKey name = some w) : P w := by
  have hmapping : v.asMapping.isSome = true := by
    cases hm : v.asMapping with
    | none => simp [Value.getKey, hm] at hw
    | some es => rfl
  rw [← step_eq_getKey hmapping] at hw
  exact h.below hv hw

theorem follow (hv : P v) (segments : List (List Char)) :
    (change v).follow segments = (v.follow segments).map change := by
  induction segments generalizing v with
  | nil => rfl
  | cons s ss ih =>
    rw [Value.follow, Value.follow, h.step s hv]
    cases hw : v.step s with
    | none => rfl
    | some w => exact ih (h.below hv hw)

theorem lookup (hv : P v) (path : String) :
    (change v).lookup path = (v.lookup path).map change := by
  unfold Value.lookup
  split
  · rfl
  · exact h.follow hv _

theorem typeName (hv : P v) : (change v).typeName = v.typeName := by
  rw [Value.typeName, h.kind hv, Value.typeName]

theorem foldlM_getKey (hv : P v) (names : List String) :
    names.foldlM Value.getKey (change v) = (names.foldlM Value.getKey v).map change ∧
      ∀ w, names.foldlM Value.getKey v = some w → P w := by
  induction names generalizing v with
  | nil =>
    refine ⟨rfl, ?_⟩
    intro w hw
    cases hw
    exact hv
  | cons n ns ih =>
    rw [List.foldlM_cons, List.foldlM_cons, h.getKey hv]
    cases hu : v.getKey n with
    | none => exact ⟨rfl, fun w hw => nomatch hw⟩
    | some u => exact ih (h.of_getKey hv hu)

theorem found (hv : P v) (p : Place) : p.found (change v) = (p.found v).map change :=
  (h.foldlM_getKey hv p.names).1

theorem isBlocked (hv : P v) (p : Place) : p.isBlocked (change v) = p.isBlocked v := by
  rw [Place.isBlocked, Place.isBlocked, h.found hv]
  cases hw : p.found v with
  | none => rfl
  | some w =>
    have hPw : P w := (h.foldlM_getKey hv p.names).2 w hw
    rw [Option.map_some, Option.any_some, Option.any_some, h.isNone_asMapping hPw]

end Access

section Schema

variable (h : Transparent P change) (keep : Declaration → Bool)

include h

theorem firstBlocked (hv : P v) (fs : List Field) :
    firstBlocked keep (change v) fs = firstBlocked keep v fs :=
  List.find?_congr (fun p _ => by rw [h.isBlocked hv])

theorem kept (hv : P v) (fs : List Field) :
    Tiers.kept keep (change v) fs = (Tiers.kept keep v fs).map (fun e => (e.1, change e.2)) := by
  induction fs using Field.forest generalizing v with
  | nil => rfl
  | cons d gs fs ihg ihf =>
    have hcopied : ∀ w, P w →
        Tiers.copied keep gs (change w) = change (Tiers.copied keep gs w) := by
      intro w hw
      unfold Tiers.copied Tiers.extracted
      split
      · rfl
      · rw [ihg hw, ← h.ofEntries]
    rw [Tiers.kept_cons, Tiers.kept_cons, List.map_append, ihf hv, Tiers.keptField_eq,
      Tiers.keptField_eq, h.getKey hv]
    cases keep d with
    | false => rfl
    | true =>
      cases hw : v.getKey d.name with
      | none => rfl
      | some w => simp [hcopied w (h.of_getKey hv hw)]

theorem extracted (hv : P v) (fs : List Field) :
    Tiers.extracted keep (change v) fs = change (Tiers.extracted keep v fs) := by
  rw [Tiers.extracted, h.kept keep hv, ← h.ofEntries, Tiers.extracted]

theorem extract (hv : P v) (fs : List Field) :
    Tiers.extract keep fs (change v) = (Tiers.extract keep fs v).map change := by
  rw [Tiers.extract_eq, Tiers.extract_eq, h.isNone_asMapping hv, h.firstBlocked keep hv,
    h.extracted keep hv]
  cases v.asMapping.isNone with
  | true => rfl
  | false => cases Schema.firstBlocked keep v fs <;> rfl

end Schema

section Reconciliation

variable (h : Transparent P change) {node : Option Value} (hnode : ∀ w, node = some w → P w)

include h hnode

theorem labelOf (d : Declaration) : labelOf d (node.map change) = labelOf d node := by
  cases hn : node with
  | none => rfl
  | some w =>
    simp only [Reconciliation.labelOf, Option.map_some, Option.bind_some, h.typeName (hnode w hn)]

theorem undeclared (fs : List Field) : undeclared fs (node.map change) = undeclared fs node := by
  cases hn : node with
  | none => rfl
  | some w =>
    simp only [Reconciliation.undeclared, Option.map_some, h.childKeys (hnode w hn)]

theorem walkFields (above : String) (deprecated : Bool) (fs : List Field) :
    walkFields above (node.map change) deprecated fs = walkFields above node deprecated fs := by
  induction fs using Field.forest generalizing node above deprecated with
  | nil => rfl
  | cons d gs fs ihg ihf =>
    have hfound : (node.map change).bind (·.getKey d.name) =
        (node.bind (·.getKey d.name)).map change := by
      cases hn : node with
      | none => rfl
      | some w => exact h.getKey (hnode w hn) d.name
    have hbelow : ∀ w, node.bind (·.getKey d.name) = some w → P w := by
      intro w hw
      obtain ⟨u, hu, hw⟩ := Option.bind_eq_some_iff.mp hw
      exact h.of_getKey (hnode u hu) hw
    simp only [Reconciliation.walkFields, walkField, hfound, h.labelOf hbelow, h.undeclared hbelow,
      ihg hbelow, ihf hnode]

end Reconciliation

theorem reconcile (h : Transparent P change) (hv : P v) (fs : List Field) :
    reconcile fs (change v) = reconcile fs v := by
  have hnode : ∀ w, some v = some w → P w := by
    intro w hw
    cases hw
    exact hv
  have hroot : some (change v) = (some v).map change := rfl
  rw [Schema.reconcile, walk, hroot, h.walkFields hnode, h.undeclared hnode, Schema.reconcile, walk]

end Value.Transparent

end ComponentDoc
