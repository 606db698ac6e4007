import ComponentDoc.Proofs.KeyRewriting
import ComponentDoc.Proofs.Reduction
import ComponentDoc.Proofs.TierMembership

set_option autoImplicit false

namespace ComponentDoc

namespace Value

/-- The same value, or an untagged mapping under string keys beside a mapping that has all of these keys:
under each key a part of what the other has there. -/
inductive PartOf : Value → Value → Prop
  | whole (v : Value) : PartOf v v
  | mapping {es : List (String × Value)} {large : Value} :
      large.asMapping.isSome = true →
      (∀ k ∈ es.map Prod.fst, (large.getKey k).isSome = true) →
      (∀ k v w, getKey (.map (textKeyed es)) k = some v → large.getKey k = some w → PartOf v w) →
      PartOf (.map (textKeyed es)) large

theorem mem_names_iff {k : String} {es : List (String × Value)} :
    k ∈ es.map Prod.fst ↔ (getKey (.map (textKeyed es)) k).isSome = true := by
  rw [← childKeys_textKeyed, mem_childKeys_iff]

theorem PartOf.trans {u v w : Value} (huv : PartOf u v) (hvw : PartOf v w) : PartOf u w := by
  induction huv generalizing w with
  | whole v => exact hvw
  | mapping hmap hkeys hparts ih =>
    cases hvw with
    | whole => exact .mapping hmap hkeys hparts
    | mapping hmap' hkeys' hparts' =>
      refine .mapping hmap' ?_ ?_
      · intro k hk
        exact hkeys' k (mem_names_iff.mpr (hkeys k hk))
      · intro k a c ha hc
        have hmem := mem_names_iff.mpr (Option.isSome_of_eq_some ha)
        obtain ⟨b, hb⟩ := Option.isSome_iff_exists.mp (hkeys k hmem)
        exact ih k a b ha hb (hparts' k b c hb hc)

end Value

open Schema

namespace Tiers

variable {keep : Declaration → Bool} {fs : List Field}

theorem partOf_extracted {v : Value} (h : Fits keep v fs) : (extracted keep v fs).PartOf v := by
  induction fs using Field.level_induction generalizing v with
  | level fs ih =>
    have hstored : extracted keep v fs = .map (Value.textKeyed (Value.lastValues (kept keep v fs))) :=
      Value.ofEntries_textKeyed_last _
    have hpart : ∀ k a b, (extracted keep v fs).getKey k = some a → v.getKey k = some b →
        a.PartOf b := by
      intro k a b ha hb
      obtain ⟨d, gs, u, hmem, hk, rfl, hu, rfl⟩ := exists_of_getKey_extracted ha
      cases hu.symm.trans hb
      cases gs with
      | nil => exact .whole _
      | cons g gs => exact ih d (g :: gs) hmem (h.child hmem hk (List.cons_ne_nil g gs) hu)
    rw [hstored] at hpart ⊢
    refine .mapping h.root ?_ hpart
    intro k hk
    obtain ⟨a, ha⟩ := Option.isSome_iff_exists.mp (Value.mem_names_iff.mp hk)
    rw [← hstored] at ha
    obtain ⟨_, _, _, _, _, _, hu, _⟩ := exists_of_getKey_extracted ha
    rw [hu, Option.isSome_some]

/-- Each tier is a part of the one above, and parts of parts are parts. -/
theorem split_partOf {v : Value} {t : Tiers} (ht : split fs v = .ok t) :
    t.common.PartOf t.advanced ∧ t.advanced.PartOf v ∧ t.common.PartOf v ∧
      ∀ a b c : Value, a.PartOf b → b.PartOf c → a.PartOf c := by
  have hparts : t.common.PartOf t.advanced ∧ t.advanced.PartOf v := by
    by_cases hne : fs = []
    · subst hne
      cases ht
      exact ⟨.whole v, .whole v⟩
    · obtain ⟨hfits, rfl⟩ := (split_eq_ok_iff hne).mp ht
      have hcommon : Fits shownCommon (extracted shownAdvanced v fs) fs :=
        fits_within hfits (within_extracted v fs) (fun _ => shownAdvanced_of_shownCommon)
      exact ⟨partOf_extracted hcommon, partOf_extracted hfits⟩
  exact ⟨hparts.1, hparts.2, hparts.1.trans hparts.2, fun _ _ _ => Value.PartOf.trans⟩

def unlintedFields : List Field :=
  [⟨{ name := "a.b" }, [.common "" "", .advanced "x" ""]⟩, .common "1" "",
    ⟨{ name := "a.b" }, [.common "1" "", .advanced "" ""]⟩]

def unlintedSample : Value :=
  .map [(.tagged "k" (.str "a.b"), .tagged "t" (.map [(.str "", .null), (.int 1, .bool true)])),
    (.int 1, .seq [.null])]

theorem split_partOf_unlinted :
    ∃ t, split unlintedFields unlintedSample = .ok t ∧ t.common.PartOf unlintedSample ∧
      t.common = .map [(.str "a.b", .map [(.str "1", .bool true)]), (.str "1", .seq [.null])] := by
  obtain ⟨t, ht⟩ : ∃ t, split unlintedFields unlintedSample = .ok t := ⟨_, rfl⟩
  refine ⟨t, ht, (split_partOf ht).2.2.1, ?_⟩
  cases ht
  rfl

end Tiers

end ComponentDoc
