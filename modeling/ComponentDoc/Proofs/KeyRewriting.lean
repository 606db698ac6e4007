import ComponentDoc.Proofs.Outcome
import ComponentDoc.Proofs.Undeclared

/-!
What rewriting keys as strings does to a lookup. In a mapping with several keys of one text a name finds
the exact string key, or else the first that reads so; once the keys are rewritten it finds the value
that was stored last. Reconciliation before and after rewriting agrees exactly where these two
choices cover the schema alike and give the same types.
-/

set_option autoImplicit false

namespace ComponentDoc

open Schema

namespace Value

def findLast (name : String) : List (Value × Value) → Option Value
  | [] => none
  | (k, v) :: es => (findLast name es).or (if k.keyText = some name then some v else none)

def getLast (v : Value) (name : String) : Option Value := v.asMapping.bind (findLast name)

/-- Entries all of whose keys with a text are that text. -/
def Rewritten (es : List (Value × Value)) : Prop :=
  ∀ e ∈ es, ∀ s, e.1.keyText = some s → e.1 = .str s

section Lookup

variable (name : String)

theorem findText_isSome_iff {es : List (Value × Value)} :
    (findText name es).isSome = true ↔ name ∈ keyTexts es := by
  induction es with
  | nil => simp [keyTexts, findText]
  | cons e es ih =>
    obtain ⟨k, v⟩ := e
    have hcons : name ∈ keyTexts ((k, v) :: es) ↔ k.keyText = some name ∨ name ∈ keyTexts es := by
      cases hk : k.keyText <;> simp [keyTexts, hk, eq_comm]
    rw [hcons, findText]
    by_cases hk : k.keyText = some name
    · simp [hk]
    · simp [hk, ih]

theorem findText_of_findExact {es : List (Value × Value)} (h : (findExact name es).isSome = true) :
    (findText name es).isSome = true := by
  induction es with
  | nil => simp [findExact] at h
  | cons e es ih =>
    obtain ⟨k, v⟩ := e
    rw [findText]
    by_cases hk : k.keyText = some name
    · simp [hk]
    · rw [findExact_cons, same_str_of_keyText hk] at h
      rw [if_neg hk]
      exact ih (by simpa using h)

theorem findLast_isSome {es : List (Value × Value)} :
    (findLast name es).isSome = (findText name es).isSome := by
  induction es with
  | nil => rfl
  | cons e es ih =>
    obtain ⟨k, v⟩ := e
    rw [findLast, findText, Option.isSome_or, ih]
    by_cases hk : k.keyText = some name <;> simp [hk]

theorem mem_childKeys_iff {v : Value} : name ∈ v.childKeys ↔ (v.getKey name).isSome = true := by
  cases hm : v.asMapping with
  | none => simp [childKeys, getKey, hm]
  | some es =>
    have hfind : (findKey name es).isSome = (findText name es).isSome := by
      rw [findKey, Option.isSome_or]
      cases he : (findExact name es).isSome with
      | false => rfl
      | true => rw [findText_of_findExact name he, Bool.true_or]
    simp [childKeys, getKey, hm, hfind, findText_isSome_iff]

theorem getLast_isSome (v : Value) : (v.getLast name).isSome = (v.getKey name).isSome := by
  rw [Bool.eq_iff_iff, ← mem_childKeys_iff]
  cases hm : v.asMapping <;> simp [childKeys, getLast, hm, findLast_isSome, findText_isSome_iff]

theorem findLast_eq_findKey {es : List (Value × Value)} (h : (keyTexts es).Nodup) :
    findLast name es = findKey name es := by
  induction es with
  | nil => rfl
  | cons e es ih =>
    obtain ⟨k, v⟩ := e
    rw [findKey, findLast, findText, findExact_cons]
    by_cases hk : k.keyText = some name
    · have hmem : name ∉ keyTexts es := by
        rw [keyTexts, List.filterMap_cons, hk] at h
        exact (List.nodup_cons.mp h).1
      have htext : findText name es = none := by
        rwa [← findText_isSome_iff, Option.not_isSome_iff_eq_none] at hmem
      have hlast : findLast name es = none := by
        simp [← Option.not_isSome_iff_eq_none, findLast_isSome, htext]
      have hexact : findExact name es = none := by
        rw [← Option.not_isSome_iff_eq_none]
        intro he
        have hfound := findText_of_findExact name he
        rw [htext] at hfound
        cases hfound
      cases hs : k.same (.str name) <;> simp [hk, hlast, hexact]
    · have htail : (keyTexts es).Nodup := by
        rw [keyTexts, List.filterMap_cons] at h
        cases hkt : k.keyText <;> simp_all [keyTexts]
      rw [ih htail, findKey, if_neg hk, if_neg hk, same_str_of_keyText hk]
      simp

theorem getLast_eq_getKey {v : Value} (h : v.childKeys.Nodup) : v.getLast name = v.getKey name := by
  cases hm : v.asMapping with
  | none => simp [getLast, getKey, hm]
  | some es =>
    have hnodup : (keyTexts es).Nodup := by simpa [childKeys, hm] using h
    simp [getLast, getKey, hm, findLast_eq_findKey name hnodup]

end Lookup

section Insertion

variable (name : String) (v : Value) (es : List (Value × Value))

theorem findExact_insert_str (s : String) :
    findExact name (insert (.str s) v es) = if s = name then some v else findExact name es := by
  induction es with
  | nil => simp [insert, findExact]
  | cons e es ih =>
    obtain ⟨j, w⟩ := e
    rw [insert]
    by_cases hj : j = .str s
    · subst hj
      by_cases hs : s = name <;> simp [findExact, same, hs]
    · rw [if_neg (by rwa [same_str_iff]), findExact_cons, findExact_cons, ih]
      by_cases hs : s = name
      · have hname : j.same (.str name) = false := by
          rw [← Bool.not_eq_true, same_str_iff, ← hs]
          exact hj
        simp [hs, hname]
      · simp [hs]

theorem findExact_insert_of_keyText {k : Value} (hk : k.keyText = none) :
    findExact name (insert k v es) = findExact name es := by
  have hstr : ∀ s, Value.same (.str s) k = false := by
    intro s
    cases k <;> simp_all [same, keyText]
  induction es with
  | nil =>
    have hne : k.same (.str name) = false := same_str_of_keyText (by simp [hk])
    simp [insert, findExact_cons, hne]
  | cons e es ih =>
    obtain ⟨j, w⟩ := e
    rw [insert]
    split
    · next hj =>
      have hne : j.same (.str name) = false := by
        rw [← Bool.not_eq_true, same_str_iff]
        intro hname
        rw [hname, hstr] at hj
        cases hj
      simp [findExact_cons, hne]
    · rw [findExact_cons, ih, ← findExact_cons]

theorem findExact_insertAll (fs : List (Value × Value)) :
    findExact name (insertAll es (stringKeysEntries fs)) =
      ((findLast name fs).map stringKeys).or (findExact name es) := by
  induction fs generalizing es with
  | nil => simp [stringKeysEntries, insertAll, findLast]
  | cons f fs ih =>
    obtain ⟨k, w⟩ := f
    rw [stringKeysEntries, insertAll, ih, findLast, stringKey]
    cases hk : k.keyText with
    | none => simp [findExact_insert_of_keyText name _ _ hk]
    | some s =>
      rw [findExact_insert_str]
      by_cases hs : s = name <;> cases findLast name fs <;> simp [hs]

variable {name es}

theorem Rewritten.insert {k : Value} (hk : ∀ s, k.keyText = some s → k = .str s)
    (h : Rewritten es) : Rewritten (Value.insert k v es) := by
  induction es with
  | nil => simpa [Rewritten, Value.insert] using hk
  | cons e es ih =>
    obtain ⟨j, w⟩ := e
    obtain ⟨hj, hes⟩ := List.forall_mem_cons.mp h
    rw [Value.insert]
    split
    · exact List.forall_mem_cons.mpr ⟨hj, hes⟩
    · exact List.forall_mem_cons.mpr ⟨hj, ih hes⟩

theorem Rewritten.insertAll (h : Rewritten es) (fs : List (Value × Value)) :
    Rewritten (Value.insertAll es (stringKeysEntries fs)) := by
  induction fs generalizing es with
  | nil => exact h
  | cons f fs ih =>
    obtain ⟨k, w⟩ := f
    apply ih
    refine Rewritten.insert _ ?_ h
    unfold stringKey
    cases hk : k.keyText with
    | none => simp [hk]
    | some t => simp [keyText]

theorem Rewritten.findText_eq (h : Rewritten es) : findText name es = findExact name es := by
  induction es with
  | nil => rfl
  | cons e es ih =>
    obtain ⟨k, w⟩ := e
    obtain ⟨hk, hes⟩ := List.forall_mem_cons.mp h
    have hsame : k.same (.str name) = true ↔ k.keyText = some name := by
      rw [same_str_iff]
      exact ⟨fun hs => by rw [hs, keyText], hk name⟩
    rw [findText, findExact_cons, ih hes]
    by_cases hn : k.keyText = some name
    · simp [hn, hsame.mpr hn]
    · simp [hn, mt hsame.mp hn]

end Insertion

theorem asMapping_stringKeys : ∀ v : Value, v.stringKeys.asMapping =
    v.asMapping.map (fun es => Value.insertAll [] (stringKeysEntries es))
  | .map _ => rfl
  | .tagged _ v => asMapping_stringKeys v
  | .null | .bool _ | .int _ | .float _ | .str _ | .seq _ => rfl

theorem kind_stringKeys : ∀ v : Value, v.stringKeys.kind = v.kind
  | .map _ => rfl
  | .tagged _ v => kind_stringKeys v
  | .null | .bool _ | .int _ | .float _ | .str _ | .seq _ => rfl

theorem typeName_stringKeys (v : Value) : v.stringKeys.typeName = v.typeName := by
  rw [typeName, kind_stringKeys, typeName]

/-- After rewriting, a name finds what the last key of that text held. -/
theorem getKey_stringKeys (v : Value) (name : String) :
    v.stringKeys.getKey name = (v.getLast name).map stringKeys := by
  rw [getKey, getLast, asMapping_stringKeys]
  cases v.asMapping with
  | none => rfl
  | some es =>
    have hrewritten : Rewritten (Value.insertAll [] (stringKeysEntries es)) :=
      Rewritten.insertAll (by simp [Rewritten]) es
    simp [findKey, hrewritten.findText_eq, findExact_insertAll, findExact]

theorem mem_childKeys_stringKeys {v : Value} {name : String} :
    name ∈ v.stringKeys.childKeys ↔ name ∈ v.childKeys := by
  rw [mem_childKeys_iff, mem_childKeys_iff, getKey_stringKeys, Option.isSome_map, getLast_isSome]

end Value

/-- What the names on the way lead to if the last key of each text counts. -/
def Place.foundLast (v : Value) (p : Place) : Option Value := p.names.foldlM Value.getLast v

theorem Place.found_stringKeys (v : Value) (p : Place) :
    p.found v.stringKeys = (p.foundLast v).map Value.stringKeys := by
  unfold found foundLast
  generalize p.names = names
  induction names generalizing v with
  | nil => rfl
  | cons n ns ih =>
    simp only [List.foldlM_cons, Value.getKey_stringKeys]
    cases v.getLast n with
    | none => rfl
    | some w => exact ih w

namespace Schema

theorem covers_stringKeys {fs : List Field} {v : Value} :
    Covers Value.getKey fs v.stringKeys ↔ Covers Value.getLast fs v := by
  have hfound : ∀ p : Place, p.names.foldlM Value.getKey v.stringKeys =
      (p.names.foldlM Value.getLast v).map Value.stringKeys := Place.found_stringKeys v
  constructor
  · intro hcovers
    obtain ⟨hroot, hbelow⟩ := hcovers
    refine ⟨fun k hk => hroot k (Value.mem_childKeys_stringKeys.mpr hk), ?_⟩
    intro p hp hc w hw k hk
    exact hbelow p hp hc w.stringKeys (by rw [hfound, hw]; rfl) k
      (Value.mem_childKeys_stringKeys.mpr hk)
  · intro hcovers
    obtain ⟨hroot, hbelow⟩ := hcovers
    refine ⟨fun k hk => hroot k (Value.mem_childKeys_stringKeys.mp hk), ?_⟩
    intro p hp hc u hu k hk
    rw [hfound] at hu
    obtain ⟨w, hw, rfl⟩ := Option.map_eq_some_iff.mp hu
    exact hbelow p hp hc w hw k (Value.mem_childKeys_stringKeys.mp hk)

/-- An example reads alike by the key that a name finds and by the last key of that text: it covers
the schema in both readings or in neither, and gives the same type to every field without one. -/
structure ReadsAlike (fs : List Field) (v : Value) : Prop where
  covers : Covers Value.getLast fs v ↔ Covers Value.getKey fs v
  types : ∀ p ∈ places fs, p.declaration.type = "" →
    (p.foundLast v).bind Value.typeName = (p.found v).bind Value.typeName

theorem covers_congr {fs : List Field} {v : Value}
    (h : ∀ p ∈ places fs, p.foundLast v = p.found v) :
    Covers Value.getLast fs v ↔ Covers Value.getKey fs v := by
  constructor
  · intro hcovers
    obtain ⟨hroot, hbelow⟩ := hcovers
    exact ⟨hroot, fun p hp hc w hw => hbelow p hp hc w ((h p hp).trans hw)⟩
  · intro hcovers
    obtain ⟨hroot, hbelow⟩ := hcovers
    exact ⟨hroot, fun p hp hc w hw => hbelow p hp hc w ((h p hp).symm.trans hw)⟩

theorem foundLast_eq_found {fs : List Field} {v : Value} (hroot : v.childKeys.Nodup)
    (hbelow : ∀ p ∈ places fs, ∀ w, p.found v = some w → w.childKeys.Nodup) :
    ∀ p ∈ places fs, p.foundLast v = p.found v := by
  intro p hp
  induction hp using places_induction generalizing v with
  | top fs d gs hmem =>
    rw [Place.foundLast, Place.found, Place.names_top, List.foldlM_cons, List.foldlM_cons,
      Value.getLast_eq_getKey d.name hroot]
    rfl
  | under fs d gs q hmem hq ih =>
    rw [Place.foundLast, Place.found, Place.names_under, List.foldlM_cons, List.foldlM_cons,
      Value.getLast_eq_getKey d.name hroot]
    cases hw : v.getKey d.name with
    | none => rfl
    | some w =>
      have hwroot : w.childKeys.Nodup := hbelow _ (top_mem_places hmem) w (by simpa using hw)
      exact ih hwroot (fun r hr u hu =>
        hbelow _ (under_mem_places hmem hr) u (by rw [Place.found_under, hw]; exact hu))

theorem flat_stringKeys_iff {v : Value} {p : Place} :
    p.flat v.stringKeys = p.flat v ↔ (p.declaration.type = "" →
      (p.foundLast v).bind Value.typeName = (p.found v).bind Value.typeName) := by
  have hbind : ((p.foundLast v).map Value.stringKeys).bind Value.typeName =
      (p.foundLast v).bind Value.typeName := by
    cases p.foundLast v <;> simp [Value.typeName_stringKeys]
  by_cases ht : p.declaration.type = "" <;>
    simp [Place.flat, Reconciliation.labelOf, ht, Place.found_stringKeys, hbind]

theorem reconcile_stringKeys {fs : List Field} {v : Value} :
    ((reconcile fs v.stringKeys).isConsistent = (reconcile fs v).isConsistent ∧
      (reconcile fs v.stringKeys).fields = (reconcile fs v).fields) ↔ ReadsAlike fs v := by
  have hfields : (reconcile fs v.stringKeys).fields = (reconcile fs v).fields ↔
      ∀ p ∈ places fs, p.declaration.type = "" →
        (p.foundLast v).bind Value.typeName = (p.found v).bind Value.typeName := by
    rw [reconcile_fields, reconcile_fields, List.map_inj_left]
    exact forall₂_congr (fun p _ => flat_stringKeys_iff)
  rw [Bool.eq_iff_iff, reconcile_isConsistent, reconcile_isConsistent, covers_stringKeys, hfields]
  exact ⟨fun h => ⟨h.1, h.2⟩, fun h => ⟨h.covers, h.types⟩⟩

end Schema

namespace Context

theorem isConsistent_of_build_eq_ok {config : Config} {c : Component} {sample full : Value}
    {context : Context} (hne : c.fields ≠ []) (hn : sample.normalize = .ok full)
    (hb : build config c sample = .ok context) : (reconcile c.fields full).isConsistent = true := by
  obtain ⟨_, _, flat, _, hnormal, _, hflat, _, _⟩ := build_eq_ok.mp hb
  cases hn.symm.trans hnormal
  rw [flatFields_eq hne] at hflat
  split at hflat
  · next hmissing => simp [Reconciliation.isConsistent, hmissing]
  · cases hflat

/-- Reconciliation of an example as it is and of its normal form agree, in consistency and in every
flattened field, exactly if the example reads alike in both. It does so wherever the levels that the
schema reaches have keys of different texts, and then a document fails for undeclared keys only if
reconciliation of the example as it is finds some. -/
theorem reconcile_normalized_iff (config : Config) (c : Component) (sample : Value)
    (hne : c.fields ≠ []) (hn : sample.normalize = .ok sample.stringKeys) :
    (((reconcile c.fields sample.stringKeys).isConsistent =
          (reconcile c.fields sample).isConsistent ∧
        (reconcile c.fields sample.stringKeys).fields = (reconcile c.fields sample).fields) ↔
      ReadsAlike c.fields sample) ∧
    (sample.childKeys.Nodup →
      (∀ p ∈ places c.fields, ∀ w, p.found sample = some w → w.childKeys.Nodup) →
      ReadsAlike c.fields sample) ∧
    (ReadsAlike c.fields sample →
      ((reconcile c.fields sample).isConsistent = true → SparesKeys (build config c sample)) ∧
      ∀ context, build config c sample = .ok context →
        (reconcile c.fields sample).isConsistent = true) := by
  refine ⟨reconcile_stringKeys, ?_, ?_⟩
  · intro hroot hbelow
    have hfound := foundLast_eq_found hroot hbelow
    exact ⟨covers_congr hfound, fun p hp _ => by rw [hfound p hp]⟩
  · intro halike
    obtain ⟨hconsistent, _⟩ := reconcile_stringKeys.mpr halike
    constructor
    · intro hc
      exact build_sparesKeys config hne hn (hconsistent.trans hc)
    · intro context hb
      rw [← hconsistent]
      exact isConsistent_of_build_eq_ok hne hn hb

theorem reconcile_normalized_iff_readerSample :
    (reconcile reader.fields readerSample.stringKeys).isConsistent =
        (reconcile reader.fields readerSample).isConsistent ∧
      (reconcile reader.fields readerSample.stringKeys).fields =
        (reconcile reader.fields readerSample).fields := by
  have hn : readerSample.normalize = .ok readerSample.stringKeys := normalize_readerSample
  obtain ⟨hiff, hnodup, _⟩ := reconcile_normalized_iff {} reader readerSample (by simp [reader]) hn
  refine hiff.mpr (hnodup (by decide) ?_)
  intro p hp w hw
  simp only [reader, places_cons, places_nil, List.map_cons, List.map_nil, List.append_nil,
    List.nil_append, List.mem_cons, List.not_mem_nil, or_false] at hp
  rcases hp with rfl | rfl | rfl <;> cases hw
  · decide
  · decide

def numbered : Component where
  name := "numbered"
  category := "sources"
  fields := [⟨{ name := "1" }, [⟨{ name := "x" }, []⟩]⟩]

def numberedSample : Value :=
  .map [(.str "1", .map [(.str "x", .bool true)]), (.int 1, .map [(.str "y", .bool true)])]

theorem normalize_numberedSample : numberedSample.normalize = .ok numberedSample.stringKeys := by
  have hw : Yaml.write numberedSample = .ok "'1':\n  x: true\n1:\n  y: true\n" :=
    Yaml.write_eq (by decide +kernel)
  have hr : Yaml.parseValue "'1':\n  x: true\n1:\n  y: true\n" = .ok numberedSample :=
    Yaml.parseValue_eq (by decide +kernel)
  exact Value.normalize_eq hw hr

/-- Before rewriting the string key is found and consistent; after it, the integer key's value is
found, which has an undeclared key. -/
theorem reconcile_normalized_disagrees :
    numberedSample.normalize = .ok numberedSample.stringKeys ∧
      (reconcile numbered.fields numberedSample).isConsistent = true ∧
      (reconcile numbered.fields numberedSample.stringKeys).isConsistent = false ∧
      build {} numbered numberedSample = .error (.undeclared ["1.y"]) := by
  refine ⟨normalize_numberedSample, by decide, by decide, ?_⟩
  have hl : (lintFields "" numbered.fields).errors = [] := by decide +kernel
  have ht : Tiers.split numbered.fields numberedSample.stringKeys =
      .ok ⟨.map [(.str "1", .map [])], .map [(.str "1", .map [])]⟩ := rfl
  have hw : Yaml.Writable (.map [(.str "1", .map [])]) :=
    Yaml.writable_iff.mpr (by decide +kernel)
  have hwt : ∀ t, Tiers.split numbered.fields numberedSample.stringKeys = .ok t →
      Yaml.Writable t.advanced ∧ Yaml.Writable t.common := by
    intro t h
    cases ht.symm.trans h
    exact ⟨hw, hw⟩
  apply errorOf_eq_some
  rw [errorOf_build {} (by simp [numbered]) (lintFields_errors_eq_nil.mp hl).toWellNamed
    normalize_numberedSample hwt (by simp [numbered, places_cons])]
  decide +kernel

end Context

end ComponentDoc
