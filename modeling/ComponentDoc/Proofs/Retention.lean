import Mathlib.Data.List.Dedup
import ComponentDoc.Proofs.KeyRewriting

/-!
How much of a consistent example an advanced tier keeps. At every level that the schema reaches it has
one entry for each text among the keys there, and under it what the example holds. So nothing is lost
at a level exactly if all its keys have texts, and different ones: a null, a sequence or a mapping as a
key is passed over by reconciliation and splitting alike, and of two keys of one text one is kept.
-/

set_option autoImplicit false

namespace ComponentDoc

open Schema Tiers

namespace Value

def entryCount (v : Value) : Nat := (v.asMapping.map List.length).getD 0

def NamesEntries (v : Value) : Prop :=
  ∀ es, v.asMapping = some es → (∀ e ∈ es, e.1.keyText.isSome = true) ∧ (keyTexts es).Nodup

theorem dedup_keyTexts_length {es : List (Value × Value)} :
    (keyTexts es).dedup.length = es.length ↔
      (∀ e ∈ es, e.1.keyText.isSome = true) ∧ (keyTexts es).Nodup := by
  have htexts : (keyTexts es).length ≤ es.length := List.length_filterMap_le _ es
  have hdedup : (keyTexts es).dedup.length ≤ (keyTexts es).length :=
    (List.dedup_sublist (keyTexts es)).length_le
  have hall : (keyTexts es).length = es.length ↔ ∀ e ∈ es, e.1.keyText.isSome = true :=
    List.filterMap_length_eq_length
  have hnodup : (keyTexts es).dedup.length = (keyTexts es).length ↔ (keyTexts es).Nodup := by
    rw [← List.dedup_eq_self]
    exact ⟨(List.dedup_sublist (keyTexts es)).eq_of_length, congrArg List.length⟩
  rw [← hall, ← hnodup]
  omega

theorem dedup_childKeys_length (v : Value) :
    v.childKeys.dedup.length = v.entryCount ↔ v.NamesEntries := by
  cases hm : v.asMapping with
  | none => simp [childKeys, entryCount, NamesEntries, hm]
  | some es => simp [childKeys, entryCount, NamesEntries, hm, dedup_keyTexts_length]

theorem entryCount_textKeyed (es : List (String × Value)) :
    (Value.map (textKeyed es)).entryCount = es.length := by
  simp [entryCount, asMapping, textKeyed]

end Value

/-- What a level of an advanced tier has kept of the example's level, under the fields declared there. -/
structure LevelKept (fs : List Field) (level tier : Value) : Prop where
  keys : ∀ k, k ∈ tier.childKeys ↔ k ∈ level.childKeys
  values : ∀ d, ⟨d, []⟩ ∈ fs → tier.getKey d.name = level.getKey d.name
  count : tier.entryCount = level.childKeys.dedup.length
  complete : tier.entryCount = level.entryCount ↔ level.NamesEntries

namespace Tiers

variable {keep : Declaration → Bool} {fs : List Field} {v : Value}

section

variable (h : Distinct fs) (hkeep : ∀ d gs, ⟨d, gs⟩ ∈ fs → keep d = true)
  (hcover : ∀ k ∈ v.childKeys, k ∈ fs.map Field.name)

include h hkeep hcover

theorem mem_childKeys_extracted (k : String) :
    k ∈ (extracted keep v fs).childKeys ↔ k ∈ v.childKeys := by
  have hnames : k ∈ (extracted keep v fs).childKeys → k ∈ fs.map Field.name := by
    intro hk
    rw [childKeys_extracted h] at hk
    exact (kept_names_sublist v fs).subset hk
  by_cases hmem : k ∈ fs.map Field.name
  · obtain ⟨⟨d, gs⟩, hfield, rfl⟩ := List.mem_map.mp hmem
    rw [Value.mem_childKeys_iff, Value.mem_childKeys_iff, Field.name_node, getKey_extracted h hfield,
      hkeep d gs hfield, if_pos rfl, Option.isSome_map]
  · exact ⟨fun hk => absurd (hnames hk) hmem, fun hk => absurd (hcover k hk) hmem⟩

theorem entryCount_extracted : (extracted keep v fs).entryCount = v.childKeys.dedup.length := by
  have hnodup : (extracted keep v fs).childKeys.Nodup := by
    rw [childKeys_extracted h]
    exact h.1.sublist (kept_names_sublist v fs)
  have hperm : List.Perm (extracted keep v fs).childKeys v.childKeys.dedup := by
    rw [List.perm_ext_iff_of_nodup hnodup (List.nodup_dedup _)]
    intro k
    rw [List.mem_dedup]
    exact mem_childKeys_extracted h hkeep hcover k
  have hcount : (extracted keep v fs).entryCount = (extracted keep v fs).childKeys.length := by
    rw [childKeys_extracted h, extracted_eq_map h, Value.entryCount_textKeyed, List.length_map]
  rw [hcount, hperm.length_eq]

theorem levelKept_extracted : LevelKept fs v (extracted keep v fs) where
  keys := mem_childKeys_extracted h hkeep hcover
  values := by
    intro d hmem
    have hcopied : copied keep [] = id := rfl
    rw [getKey_extracted h hmem, hkeep d [] hmem, if_pos rfl, hcopied, Option.map_id, id]
  count := entryCount_extracted h hkeep hcover
  complete := by
    rw [entryCount_extracted h hkeep hcover]
    exact Value.dedup_childKeys_length v

end

/-- At each level of a consistent example without deprecated fields the advanced tier has an entry for
each text among the keys, and so as many entries as the example exactly if each key has a text of its
own. -/
theorem split_keeps_levels {t : Tiers} (hne : fs ≠ []) (hl : (lintFields "" fs).errors = [])
    (hlive : ∀ p ∈ places fs, p.declaration.deprecated = false)
    (hc : (reconcile fs v).isConsistent = true) (ht : split fs v = .ok t) :
    LevelKept fs v t.advanced ∧
      ∀ p ∈ places fs, p.hasChildren = true → ∀ level, p.found v = some level →
        ∃ tier, p.found t.advanced = some tier ∧ LevelKept p.children level tier := by
  have h : Distinct fs := (lintFields_errors_eq_nil.mp hl).distinct
  have hcover := reconcile_isConsistent.mp hc
  obtain ⟨_, rfl⟩ := split_eq_ok hne h ht
  constructor
  · refine levelKept_extracted h ?_ hcover.root
    intro d gs hmem
    simpa [shownAdvanced] using hlive _ (top_mem_places hmem)
  · intro p hp hchildren level hlevel
    have hshown : ∀ q ∈ places fs, q.isKept (fun _ => true) = true →
        shownAdvanced q.declaration = true := by
      intro q hq _
      simp [shownAdvanced, hlive q hq]
    have hkept := isKept_of_forall hshown hp (by simp [Place.isKept])
    refine ⟨extracted shownAdvanced level p.children, ?_, ?_⟩
    · have hne' : p.children.isEmpty = false := by simpa [Place.hasChildren] using hchildren
      rw [found_extracted h hp, hkept, if_pos rfl, hlevel, Option.map_some, copied, hne']
      rfl
    · refine levelKept_extracted (h.beneath hp) ?_ (hcover.below p hp hchildren level hlevel)
      intro d gs hmem
      have hd : d.deprecated = false := hlive _ (child_mem_places hp hmem)
      simp [shownAdvanced, hd]

def sourceFields : List Field := [⟨{ name := "source" }, [.common "path" "", .common "7" ""]⟩]

def taggedSource : Value :=
  .map [(.str "source", .tagged "file" (.map [(.str "path", .str "in"), (.int 7, .bool true)]))]

theorem split_keeps_levels_taggedSource :
    ∃ t tier, split sourceFields taggedSource = .ok t ∧ t.advanced.entryCount = 1 ∧
      t.advanced.getKey "source" = some tier ∧ tier.entryCount = 2 := by
  have hlive : ∀ p ∈ places sourceFields, p.declaration.deprecated = false := by
    simp [sourceFields, places_cons, Field.common]
  have hconsistent : (reconcile sourceFields taggedSource).isConsistent = true := by decide
  obtain ⟨hroot, hbelow⟩ :=
    split_keeps_levels (by simp [sourceFields]) (by decide +kernel) hlive hconsistent rfl
  obtain ⟨tier, htier, hkept⟩ := hbelow _ (top_mem_places (List.mem_singleton_self _)) rfl _ rfl
  have hrootNames : taggedSource.NamesEntries := by
    intro es hes
    cases hes
    decide
  have htierNames : (Value.tagged "file"
      (.map [(.str "path", .str "in"), (.int 7, .bool true)])).NamesEntries := by
    intro es hes
    cases hes
    decide
  refine ⟨_, tier, rfl, hroot.complete.mpr hrootNames, ?_, hkept.complete.mpr htierNames⟩
  simpa using htier

def nullKeyed : Value := .map [(.str "path", .str "in"), (.null, .str "out")]

/-- A null key is not reported, and its entry is gone all the same. -/
theorem split_drops_null_key :
    (lintFields "" [.common "path" ""]).errors = [] ∧
      (∀ p ∈ places [.common "path" ""], p.declaration.deprecated = false) ∧
      (reconcile [.common "path" ""] nullKeyed).isConsistent = true ∧
      ∃ t, split [.common "path" ""] nullKeyed = .ok t ∧
        t.advanced.entryCount = 1 ∧ nullKeyed.entryCount = 2 := by
  refine ⟨by decide +kernel, by simp [Field.common, places_cons], by decide, ?_⟩
  exact ⟨_, rfl, rfl, rfl⟩

end Tiers

end ComponentDoc
