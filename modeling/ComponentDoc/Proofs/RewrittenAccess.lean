import ComponentDoc.Proofs.Overwriting
import ComponentDoc.Proofs.SettledKeys
import ComponentDoc.Proofs.Transparency

set_option autoImplicit false

namespace ComponentDoc

namespace Value

theorem eraseDups_of_nodup {texts : List String} (h : texts.Nodup) : texts.eraseDups = texts := by
  induction texts with
  | nil => rfl
  | cons s ss ih =>
    obtain ⟨hs, hss⟩ := List.nodup_cons.mp h
    have hfilter : ss.filter (fun t => !t == s) = ss := by
      rw [List.filter_eq_self]
      intro t ht
      have hne : t ≠ s := fun heq => hs (heq ▸ ht)
      simpa using hne
    rw [List.eraseDups_cons, hfilter, ih hss]

theorem childKeys_stringKeys : ∀ {v : Value}, v.Everywhere DistinctTexts →
    v.stringKeys.childKeys = v.childKeys
  | .map es, h => by
    have hdistinct : DistinctTexts es := (everywhere_map.mp h).1
    have htexts : keyTexts (insertAll [] (stringKeysEntries es)) = keyTexts es := by
      rw [(settles_stringKeysEntries es).texts, eraseDups_of_nodup hdistinct]
    exact htexts
  | .tagged _ v, h => @childKeys_stringKeys v h
  | .null, _ | .bool _, _ | .int _, _ | .float _, _ | .str _, _ | .seq _, _ => rfl

theorem step_stringKeys (segment : List Char) : ∀ {v : Value}, v.Everywhere DistinctTexts →
    v.stringKeys.step segment = (v.step segment).map stringKeys
  | .map es, h => by
    have hdistinct : (Value.map es).childKeys.Nodup := (everywhere_map.mp h).1
    have hfound := getKey_stringKeys (.map es) (String.ofList segment)
    rw [getLast_eq_getKey _ hdistinct] at hfound
    exact hfound
  | .seq vs, _ => by
    rw [stringKeys, step, step, stringKeysItems_eq_map]
    cases readPosition segment with
    | none => rfl
    | some i => simp
  | .tagged _ v, h => @step_stringKeys segment v h
  | .null, _ | .bool _, _ | .int _, _ | .float _, _ | .str _, _ => rfl

theorem mem_of_findKey {name : String} {es : List (Value × Value)} {w : Value}
    (h : findKey name es = some w) : ∃ e ∈ es, e.2 = w := by
  rw [findKey, Option.or_eq_some_iff, findExact_eq_find, findText_eq_find] at h
  rcases h with h | ⟨_, h⟩
  · obtain ⟨e, he, hw⟩ := Option.map_eq_some_iff.mp h
    exact ⟨e, List.mem_of_find?_eq_some he, hw⟩
  · obtain ⟨e, he, hw⟩ := Option.map_eq_some_iff.mp h
    exact ⟨e, List.mem_of_find?_eq_some he, hw⟩

theorem everywhere_step {P : List (Value × Value) → Prop} {w : Value} {segment : List Char} :
    ∀ {v : Value}, v.Everywhere P → v.step segment = some w → w.Everywhere P
  | .map es, h, hw => by
    obtain ⟨e, he, rfl⟩ := mem_of_findKey hw
    exact (everywhere_map.mp h).2 e he
  | .seq vs, h, hw => by
    obtain ⟨i, _, hi⟩ := Option.bind_eq_some_iff.mp hw
    exact everywhere_seq.mp h w (List.mem_of_getElem? hi)
  | .tagged _ v, h, hw => @everywhere_step P w segment v h hw
  | .null, _, hw | .bool _, _, hw | .int _, _, hw | .float _, _, hw | .str _, _, hw => nomatch hw

theorem stringKeysEntries_textKeyed (es : List (String × Value)) :
    stringKeysEntries (textKeyed es) = textKeyed (es.map (fun e => (e.1, e.2.stringKeys))) := by
  simp [stringKeysEntries_eq_map, textKeyed, stringKey, keyText]

theorem transparent_stringKeys : Transparent (Everywhere DistinctTexts) stringKeys where
  kind _ := kind_stringKeys _
  childKeys h := childKeys_stringKeys h
  step segment h := step_stringKeys segment h
  below h hw := everywhere_step h hw
  ofEntries es := by
    have hstored (fs : List (Value × Value)) : insertAll [] (insertAll [] fs) = insertAll [] fs :=
      insertAll_of_distinctKeys (distinctKeys_insertAll fs)
    rw [ofEntries_textKeyed_last, stringKeys, stringKeysEntries_textKeyed, ← lastValues_map,
      ← insertAll_nil_textKeyed, ofEntries, hstored, ofEntries]

end Value

namespace Tiers

/-- Where no two keys of a mapping read as one text, rewriting keys keeps their texts in order, and paths
and tiers lead to what they have led to, rewritten, or fail as they have failed. -/
theorem tiers_rewritten {v : Value} (h : v.Everywhere Value.DistinctTexts) (fs : List Field) :
    (∀ path, v.stringKeys.lookup path = (v.lookup path).map Value.stringKeys) ∧
      v.stringKeys.childKeys = v.childKeys ∧
      advancedOf fs v.stringKeys = (advancedOf fs v).map Value.stringKeys ∧
      commonOf fs v.stringKeys = (commonOf fs v).map Value.stringKeys := by
  have htransparent := Value.transparent_stringKeys
  refine ⟨fun path => htransparent.lookup h path, Value.childKeys_stringKeys h, ?_, ?_⟩
  · exact htransparent.extract shownAdvanced h fs
  · exact htransparent.extract shownCommon h fs

def portsSample : Value :=
  .map [(.int 1, .tagged "tcp" (.map [(.bool true, .str "a"),
    (.tagged "k" (.str "x"), .seq [.map [(.int 7, .null)]])])), (.null, .map [(.int 2, .null)])]

def portsFields (below : List Field) : List Field :=
  [⟨{ name := "1" }, [⟨{ name := "true" }, below⟩, .advanced "x" ""]⟩]

theorem tiers_rewritten_ports :
    portsSample.stringKeys.lookup "1.x.0.7" = some .null ∧
      portsSample.stringKeys.childKeys = ["1"] ∧
      commonOf (portsFields []) portsSample.stringKeys =
        .ok (.map [(.str "1", .map [(.str "true", .str "a")])]) ∧
      advancedOf (portsFields [.common "y" ""]) portsSample.stringKeys =
        .error (.notMapping "1.true") := by
  have h : ∀ es ∈ portsSample.mappings, (Value.keyTexts es).Nodup := by decide +kernel
  obtain ⟨hlookup, hkeys, -, hcommon⟩ := tiers_rewritten h (portsFields [])
  obtain ⟨-, -, hadvanced, -⟩ := tiers_rewritten h (portsFields [.common "y" ""])
  refine ⟨?_, ?_, ?_, ?_⟩
  · rw [hlookup]
    rfl
  · rw [hkeys]
    decide
  · rw [hcommon]
    rfl
  · rw [hadvanced]
    rfl

end Tiers

end ComponentDoc
