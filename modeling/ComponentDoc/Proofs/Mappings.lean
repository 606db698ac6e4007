import ComponentDoc.Proofs.KeyRewriting

set_option autoImplicit false

namespace ComponentDoc

namespace Value

@[elab_as_elim]
theorem tree_induction {motive : Value → Prop} (null : motive .null)
    (bool : ∀ b, motive (.bool b)) (int : ∀ i, motive (.int i)) (float : ∀ x, motive (.float x))
    (str : ∀ s, motive (.str s)) (seq : ∀ vs, (∀ v ∈ vs, motive v) → motive (.seq vs))
    (map : ∀ es, (∀ e ∈ es, motive e.1 ∧ motive e.2) → motive (.map es))
    (tagged : ∀ t v, motive v → motive (.tagged t v)) (v : Value) : motive v := by
  refine @Value.rec motive (fun vs => ∀ v ∈ vs, motive v)
    (fun es => ∀ e ∈ es, motive e.1 ∧ motive e.2) (fun e => motive e.1 ∧ motive e.2)
    null bool int float str seq map tagged ?_ ?_ ?_ ?_ ?_ v
  case refine_1 => simp
  case refine_2 => exact fun v vs hv hvs => List.forall_mem_cons.mpr ⟨hv, hvs⟩
  case refine_3 => simp
  case refine_4 => exact fun e es he hes => List.forall_mem_cons.mpr ⟨he, hes⟩
  case refine_5 => exact fun k v hk hv => ⟨hk, hv⟩

mutual

/-- The mappings in a value, reached through items of sequences, values of mappings and tags. -/
def mappings : Value → List (List (Value × Value))
  | .seq vs => mappingsItems vs
  | .map es => es :: mappingsEntries es
  | .tagged _ v => v.mappings
  | _ => []

def mappingsItems : List Value → List (List (Value × Value))
  | [] => []
  | v :: vs => v.mappings ++ mappingsItems vs

def mappingsEntries : List (Value × Value) → List (List (Value × Value))
  | [] => []
  | (_, v) :: es => v.mappings ++ mappingsEntries es

end

def Everywhere (P : List (Value × Value) → Prop) (v : Value) : Prop := ∀ es ∈ v.mappings, P es

/-- No key is the same as one in front of it. -/
def DistinctKeys (es : List (Value × Value)) : Prop :=
  es.Pairwise (fun a b => a.1.same b.1 = false)

def StringKeyed (es : List (Value × Value)) : Prop := ∀ e ∈ es, ∃ s, e.1 = .str s

theorem StringKeyed.rewritten {es : List (Value × Value)} (h : StringKeyed es) : Rewritten es := by
  intro e he s hs
  obtain ⟨t, ht⟩ := h e he
  rw [ht, keyText] at hs
  rw [ht, Option.some.inj hs]

section Everywhere

variable {P : List (Value × Value) → Prop}

theorem mappingsItems_eq_flatMap (vs : List Value) : mappingsItems vs = vs.flatMap mappings := by
  induction vs with
  | nil => rfl
  | cons v vs ih => rw [mappingsItems, ih, List.flatMap_cons]

theorem mappingsEntries_eq_flatMap (es : List (Value × Value)) :
    mappingsEntries es = es.flatMap (fun e => e.2.mappings) := by
  induction es with
  | nil => rfl
  | cons e es ih => rw [mappingsEntries, ih, List.flatMap_cons]

theorem everywhere_seq {vs : List Value} :
    Everywhere P (.seq vs) ↔ ∀ v ∈ vs, v.Everywhere P := by
  simp only [Everywhere, mappings, mappingsItems_eq_flatMap, List.forall_mem_flatMap]

theorem everywhere_map {es : List (Value × Value)} :
    Everywhere P (.map es) ↔ P es ∧ ∀ e ∈ es, e.2.Everywhere P := by
  simp only [Everywhere, mappings, mappingsEntries_eq_flatMap, List.forall_mem_cons,
    List.forall_mem_flatMap]

theorem everywhere_tagged {t : String} {v : Value} :
    Everywhere P (.tagged t v) ↔ v.Everywhere P := Iff.rfl

end Everywhere

theorem stringKeysItems_eq_map (vs : List Value) : stringKeysItems vs = vs.map stringKeys := by
  induction vs with
  | nil => rfl
  | cons v vs ih => rw [stringKeysItems, ih, List.map_cons]

theorem stringKeysEntries_eq_map (es : List (Value × Value)) :
    stringKeysEntries es = es.map (fun e => (stringKey e.1, e.2.stringKeys)) := by
  induction es with
  | nil => rfl
  | cons e es ih => rw [stringKeysEntries, ih, List.map_cons]

theorem insert_of_new {k v : Value} {es : List (Value × Value)}
    (h : ∀ e ∈ es, e.1.same k = false) : insert k v es = es ++ [(k, v)] := by
  induction es with
  | nil => rfl
  | cons e es ih =>
    obtain ⟨he, hes⟩ := List.forall_mem_cons.mp h
    simp [insert, he, ih hes]

theorem insertAll_of_distinctKeys {es fs : List (Value × Value)} (h : DistinctKeys (es ++ fs)) :
    insertAll es fs = es ++ fs := by
  induction fs generalizing es with
  | nil => simp [insertAll]
  | cons f fs ih =>
    have hnew : ∀ e ∈ es, e.1.same f.1 = false :=
      fun e he => (List.pairwise_append.mp h).2.2 e he f List.mem_cons_self
    rw [List.append_cons] at h ⊢
    rw [insertAll, insert_of_new hnew, ih h]

theorem forall_mem_insertAll {P Q : Value → Prop} {es fs : List (Value × Value)}
    (hes : ∀ e ∈ es, P e.1 ∧ Q e.2) (hfs : ∀ f ∈ fs, P f.1 ∧ Q f.2) :
    ∀ e ∈ insertAll es fs, P e.1 ∧ Q e.2 := by
  have hinsert : ∀ {k v : Value} {es : List (Value × Value)}, P k → Q v →
      (∀ e ∈ es, P e.1 ∧ Q e.2) → ∀ e ∈ insert k v es, P e.1 ∧ Q e.2 := by
    intro k v es hk hv hes
    induction es with
    | nil => simpa [insert] using And.intro hk hv
    | cons e es ih =>
      obtain ⟨he, hes⟩ := List.forall_mem_cons.mp hes
      rw [insert]
      split
      · exact List.forall_mem_cons.mpr ⟨⟨he.1, hv⟩, hes⟩
      · exact List.forall_mem_cons.mpr ⟨he, ih hes⟩
  induction fs generalizing es with
  | nil => exact hes
  | cons f fs ih =>
    obtain ⟨hf, hfs⟩ := List.forall_mem_cons.mp hfs
    exact ih (hinsert hf.1 hf.2 hes) hfs

theorem stringKeys_eq_self {v : Value} (hd : v.Everywhere DistinctKeys)
    (hr : v.Everywhere Rewritten) : v.stringKeys = v := by
  induction v using tree_induction with
  | null | bool b | int i | float x | str s => rfl
  | seq vs ih =>
    have hitems : vs.map stringKeys = vs.map id := by
      refine List.map_congr_left ?_
      intro v hv
      exact ih v hv (everywhere_seq.mp hd v hv) (everywhere_seq.mp hr v hv)
    rw [stringKeys, stringKeysItems_eq_map, hitems, List.map_id]
  | map es ih =>
    obtain ⟨hdistinct, hdvalues⟩ := everywhere_map.mp hd
    obtain ⟨hrewritten, hrvalues⟩ := everywhere_map.mp hr
    have hentries : es.map (fun e => (stringKey e.1, e.2.stringKeys)) = es.map id := by
      refine List.map_congr_left ?_
      intro e he
      have hkey : stringKey e.1 = e.1 := by
        unfold stringKey
        split
        · next s hs => exact (hrewritten e he s hs).symm
        · rfl
      have hvalue : e.2.stringKeys = e.2 := (ih e he).2 (hdvalues e he) (hrvalues e he)
      rw [hkey, hvalue, id]
    rw [stringKeys, ofEntries, stringKeysEntries_eq_map, hentries, List.map_id,
      insertAll_of_distinctKeys (by simpa using hdistinct), List.nil_append]
  | tagged t v ih => rw [stringKeys, ih hd hr]

end Value

namespace Yaml

theorem representItems_isSome {vs : List Value} :
    (representItems vs).isSome = true ↔ ∀ v ∈ vs, (represent none v).isSome = true := by
  induction vs with
  | nil => simp [representItems]
  | cons v vs ih =>
    rw [List.forall_mem_cons, ← ih, representItems]
    cases represent none v <;> cases representItems vs <;> simp

theorem representEntries_isSome {es : List (Value × Value)} :
    (representEntries es).isSome = true ↔
      ∀ e ∈ es, (represent none e.1).isSome = true ∧ (represent none e.2).isSome = true := by
  induction es with
  | nil => simp [representEntries]
  | cons e es ih =>
    rw [List.forall_mem_cons, ← ih, representEntries]
    cases represent none e.1 <;> cases represent none e.2 <;> cases representEntries es <;> simp

theorem represent_map_isSome {tag : Option Octets} {es : List (Value × Value)} :
    (represent tag (.map es)).isSome = true ↔ losesKey tag es = false ∧
      ∀ e ∈ es, (represent none e.1).isSome = true ∧ (represent none e.2).isSome = true := by
  rw [represent, ← representEntries_isSome]
  cases losesKey tag es <;> simp

theorem represent_stringKey {k : Value} (h : (represent none k).isSome = true) :
    (represent none (Value.stringKey k)).isSome = true := by
  unfold Value.stringKey
  split
  · rfl
  · exact h

theorem losesKey_of_not_isTagLike {tag : Option Octets} {k v : Value} {es : List (Value × Value)}
    (h : isTagLike k = false) : losesKey tag ((k, v) :: es) = false := by
  cases es with
  | nil => simp [losesKey, h]
  | cons e es => rfl

theorem stringKey_of_isTagLike {k : Value} (h : isTagLike (Value.stringKey k) = true) :
    Value.stringKey k = k := by
  unfold Value.stringKey at h ⊢
  split at h
  · cases h
  · rfl

/-- A key that would be taken for a tag has no text, so it is not rewritten and takes in no key that
is. If such a key stands alone after rewriting, it stood alone before. -/
theorem losesKey_stringKeys {tag : Option Octets} {es : List (Value × Value)}
    (hd : Value.DistinctKeys es) (h : losesKey tag es = false) :
    losesKey tag (Value.insertAll [] (Value.stringKeysEntries es)) = false := by
  cases es with
  | nil => rfl
  | cons e es =>
    rw [Value.stringKeysEntries_eq_map, List.map_cons, Value.insertAll, Value.insert,
      Value.insertAll_cons]
    cases htag : isTagLike (Value.stringKey e.1) with
    | false => exact losesKey_of_not_isTagLike htag
    | true =>
      have hkey := stringKey_of_isTagLike htag
      rw [hkey] at htag ⊢
      cases es with
      | nil => simpa [Value.insertAll, losesKey] using h
      | cons f fs =>
        have hsame : e.1.same (Value.stringKey f.1) = false := by
          unfold Value.stringKey
          split
          · rw [← Bool.not_eq_true, Value.same_str_iff]
            intro hstr
            rw [hstr] at htag
            cases htag
          · exact (List.pairwise_cons.mp hd).1 f List.mem_cons_self
        rw [List.map_cons, List.filter_cons_of_pos (by simpa using hsame), Value.insertAll,
          Value.insert, Value.insertAll_cons]
        rfl

theorem represent_stringKeys {v : Value} (hd : v.Everywhere Value.DistinctKeys)
    {tag : Option Octets} (h : (represent tag v).isSome = true) :
    (represent tag v.stringKeys).isSome = true := by
  induction v using Value.tree_induction generalizing tag with
  | null | bool b | int i | float x | str s => exact h
  | seq vs ih =>
    rw [represent, Option.isSome_map, representItems_isSome] at h
    rw [Value.stringKeys, represent, Option.isSome_map, representItems_isSome,
      Value.stringKeysItems_eq_map, List.forall_mem_map]
    exact fun v hv => ih v hv (Value.everywhere_seq.mp hd v hv) (h v hv)
  | map es ih =>
    obtain ⟨hdistinct, hdvalues⟩ := Value.everywhere_map.mp hd
    obtain ⟨hloses, hentries⟩ := represent_map_isSome.mp h
    rw [Value.stringKeys, Value.ofEntries, represent_map_isSome]
    refine ⟨losesKey_stringKeys hdistinct hloses, ?_⟩
    refine Value.forall_mem_insertAll (P := fun k => (represent none k).isSome = true)
      (Q := fun v => (represent none v).isSome = true) (by simp) ?_
    rw [Value.stringKeysEntries_eq_map, List.forall_mem_map]
    exact fun e he =>
      ⟨represent_stringKey (hentries e he).1, (ih e he).2 (hdvalues e he) (hentries e he).2⟩
  | tagged t v ih =>
    rw [Value.stringKeys, represent]
    rw [represent] at h
    split
    · next htag => simp [htag] at h
    · next htag =>
      rw [if_neg htag] at h
      exact ih hd h

theorem Writable.stringKeys {v : Value} (hd : v.Everywhere Value.DistinctKeys) (h : Writable v) :
    Writable v.stringKeys :=
  writable_iff.mpr (represent_stringKeys hd (writable_iff.mp h))

end Yaml

end ComponentDoc
