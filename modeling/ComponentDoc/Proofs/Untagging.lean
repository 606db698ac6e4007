import ComponentDoc.Proofs.Reduction
import ComponentDoc.Proofs.Transparency

set_option autoImplicit false

namespace ComponentDoc

open Schema

namespace Value

mutual

/-- The value without the tags in it, at every depth. Keys keep theirs. -/
def untag : Value → Value
  | .seq vs => .seq (untagItems vs)
  | .map es => .map (untagEntries es)
  | .tagged _ v => v.untag
  | v => v

def untagItems : List Value → List Value
  | [] => []
  | v :: vs => v.untag :: untagItems vs

def untagEntries : List (Value × Value) → List (Value × Value)
  | [] => []
  | (k, v) :: es => (k, v.untag) :: untagEntries es

end

example :
    untag (.tagged "a" (.tagged "b" (.map [(.tagged "k" (.str "x"), .seq [.tagged "c" .null])]))) =
      .map [(.tagged "k" (.str "x"), .seq [.null])] := rfl

theorem untagItems_eq_map (vs : List Value) : untagItems vs = vs.map untag := by
  induction vs with
  | nil => rfl
  | cons v vs ih => rw [untagItems, ih, List.map_cons]

theorem untagEntries_eq_map (es : List (Value × Value)) :
    untagEntries es = es.map (fun e => (e.1, e.2.untag)) := by
  induction es with
  | nil => rfl
  | cons e es ih => rw [untagEntries, ih, List.map_cons]

theorem kind_untag : ∀ v : Value, v.untag.kind = v.kind
  | .tagged _ v => kind_untag v
  | .null | .bool _ | .int _ | .float _ | .str _ | .seq _ | .map _ => rfl

theorem asMapping_untag : ∀ v : Value, v.untag.asMapping = v.asMapping.map untagEntries
  | .tagged _ v => asMapping_untag v
  | .null | .bool _ | .int _ | .float _ | .str _ | .seq _ | .map _ => rfl

theorem childKeys_untag (v : Value) : v.untag.childKeys = v.childKeys := by
  have hkeys : ∀ es, keyTexts (untagEntries es) = keyTexts es := by
    intro es
    rw [untagEntries_eq_map, keyTexts, List.filterMap_map]
    rfl
  rw [childKeys, childKeys, asMapping_untag, Option.map_map]
  simp only [Function.comp_def, hkeys]

theorem step_untag (segment : List Char) : ∀ v : Value,
    v.untag.step segment = (v.step segment).map untag
  | .map es => by
    rw [untag, step, step, untagEntries_eq_map, findKey_map]
  | .seq vs => by
    rw [untag, step, step, untagItems_eq_map]
    cases readPosition segment with
    | none => rfl
    | some i => simp
  | .tagged _ v => step_untag segment v
  | .null | .bool _ | .int _ | .float _ | .str _ => rfl

theorem transparent_untag : Transparent (fun _ => True) untag where
  kind _ := kind_untag _
  childKeys _ := childKeys_untag _
  step segment _ := step_untag segment _
  below _ _ := trivial
  ofEntries es := by
    rw [ofEntries_textKeyed_last, ofEntries_textKeyed_last, lastValues_map, untag,
      untagEntries_eq_map]
    simp [textKeyed]

end Value

namespace Tiers

def untag (t : Tiers) : Tiers := ⟨t.advanced.untag, t.common.untag⟩

theorem split_untag (fs : List Field) (v : Value) : split fs v.untag = (split fs v).map untag := by
  by_cases hne : fs = []
  · subst hne
    rfl
  · have hadvanced : advancedOf fs v.untag = (advancedOf fs v).map Value.untag :=
      Value.transparent_untag.extract shownAdvanced trivial fs
    have hcommon : ∀ a : Value,
        extracted shownCommon a.untag fs = (extracted shownCommon a fs).untag :=
      fun _ => Value.transparent_untag.extracted shownCommon trivial fs
    rw [split_eq_advancedOf hne, split_eq_advancedOf hne, hadvanced]
    cases advancedOf fs v with
    | error e => rfl
    | ok a => simp only [Except.map, hcommon, untag]

/-- Without its tags a value has the same keys and the same kind, and each path leads to what it has led
to, without tags. Reconciliation is the same, and so is splitting but for the tags in both tiers. -/
theorem split_reconcile_untagged (fs : List Field) (v : Value) :
    (∀ path, v.untag.lookup path = (v.lookup path).map Value.untag) ∧
      v.untag.childKeys = v.childKeys ∧ v.untag.typeName = v.typeName ∧
      reconcile fs v.untag = reconcile fs v ∧
      split fs v.untag = (split fs v).map untag := by
  have h := Value.transparent_untag
  refine ⟨fun path => h.lookup trivial path, Value.childKeys_untag v, h.typeName trivial, ?_, ?_⟩
  · exact h.reconcile trivial fs
  · exact split_untag fs v

end Tiers

end ComponentDoc
