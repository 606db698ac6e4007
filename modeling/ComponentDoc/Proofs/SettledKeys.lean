import ComponentDoc.Proofs.ComponentReading
import ComponentDoc.Proofs.Reordering

/-!
The keys of a normal form. Where keys are rewritten, those of one text come together at the place of the
first, so a second rewriting finds nothing to do. Each mapping of a normal form stands for a mapping of
the value it comes from, which the same turns lead to, and has that mapping's texts as its string keys.
-/

set_option autoImplicit false

namespace ComponentDoc

namespace Value

/-- One way down: to an item of a sequence, to what is beneath a tag, to what the last key of a text
holds, or to the value of a key without a text, counted among these. -/
inductive Turn where
  | item (i : Nat)
  | content
  | named (text : String)
  | unnamed (i : Nat)

def textless (es : List (Value × Value)) : List (Value × Value) :=
  es.filter (fun e => e.1.keyText.isNone)

def turn : Value → Turn → Option Value
  | .seq vs, .item i => vs[i]?
  | .map es, .named s => findLast s es
  | .map es, .unnamed i => (textless es)[i]?.map Prod.snd
  | .tagged _ v, .content => some v
  | _, _ => none

def reach (v : Value) (turns : List Turn) : Option Value := turns.foldlM turn v

def DistinctTexts (es : List (Value × Value)) : Prop := (keyTexts es).Nodup

/-- The keys of the second mapping are those of the first, read as texts: each text is a key once, at the
place where it came first. -/
structure Settles (es fs : List (Value × Value)) : Prop where
  strings : ∀ f ∈ fs, ∀ s, f.1.keyText = some s → f.1 = .str s
  distinct : DistinctTexts fs
  texts : keyTexts fs = (keyTexts es).eraseDups

/-- The mappings of the second value have the keys of the mappings of the first, settled. -/
structure SettledFrom (v n : Value) : Prop where
  reached : ∀ fs ∈ n.mappings, ∃ turns, n.reach turns = some (.map fs)
  level : ∀ turns fs, n.reach turns = some (.map fs) →
    ∃ es, v.reach turns = some (.map es) ∧ Settles es fs
  complete : ∀ turns es, v.reach turns = some (.map es) → ∃ fs, n.reach turns = some (.map fs)

section Storing

@[elab_as_elim]
theorem storing_induction {motive : List (Value × Value) → Prop} (nil : motive [])
    (cons : ∀ k v fs, motive (fs.filter (fun f => !k.same f.1)) → motive ((k, v) :: fs)) :
    ∀ fs, motive fs
  | [] => nil
  | (k, v) :: fs => cons k v fs (storing_induction nil cons (fs.filter (fun f => !k.same f.1)))
termination_by fs => fs.length
decreasing_by exact Nat.lt_succ_of_le (List.length_filter_le _ _)

theorem insertAll_nil_cons (k v : Value) (fs : List (Value × Value)) :
    insertAll [] ((k, v) :: fs) =
      (k, ((fs.reverse.find? (fun f => k.same f.1)).map Prod.snd).getD v) ::
        insertAll [] (fs.filter (fun f => !k.same f.1)) := by
  rw [insertAll, insert, insertAll_cons]

theorem distinctKeys_insertAll (fs : List (Value × Value)) : DistinctKeys (insertAll [] fs) := by
  induction fs using storing_induction with
  | nil => exact List.Pairwise.nil
  | cons k v fs ih =>
    rw [insertAll_nil_cons]
    refine List.pairwise_cons.mpr ⟨?_, ih⟩
    intro e he
    have hall : ∀ e ∈ insertAll [] (fs.filter (fun f => !k.same f.1)), k.same e.1 = false ∧ True :=
      forall_mem_insertAll (P := fun j => k.same j = false) (Q := fun _ => True) (by simp) (by simp)
    exact (hall e he).1

theorem same_str_of_rewritten {k : Value} (hk : ∀ s, k.keyText = some s → k = .str s) (t : String) :
    k.same (.str t) = (k.keyText == some t) := by
  rw [Bool.eq_iff_iff, same_str_iff, beq_iff_eq]
  exact ⟨fun h => by rw [h, keyText], hk t⟩

theorem keyTexts_filter_same {k : Value} {fs : List (Value × Value)}
    (hk : ∀ s, k.keyText = some s → k = .str s) (h : Rewritten fs) :
    keyTexts (fs.filter (fun f => !k.same f.1)) =
      (keyTexts fs).filter (fun t => !k.keyText == some t) := by
  rw [keyTexts, List.filterMap_filter, keyTexts, List.filter_filterMap]
  refine List.filterMap_congr (fun f hf => ?_)
  cases ht : f.1.keyText with
  | none => simp
  | some t =>
    rw [h f hf t ht, same_str_of_rewritten hk]
    by_cases hkt : k.keyText = some t <;> simp [hkt, Option.filter]

theorem keyTexts_insertAll {fs : List (Value × Value)} (h : Rewritten fs) :
    keyTexts (insertAll [] fs) = (keyTexts fs).eraseDups := by
  induction fs using storing_induction with
  | nil => rfl
  | cons k v fs ih =>
    obtain ⟨hk, hfs⟩ := List.forall_mem_cons.mp h
    have hrest := ih (fun f hf => hfs f (List.mem_of_mem_filter hf))
    rw [keyTexts_filter_same hk hfs] at hrest
    rw [insertAll_nil_cons, keyTexts_cons, keyTexts_cons, hrest]
    cases k.keyText with
    | none => simp
    | some s => simp [List.eraseDups_cons, Bool.beq_comm]

theorem str_same_of_textless {k : Value} (hk : k.keyText = none) (s : String) :
    Value.same (.str s) k = false := by
  cases k <;> simp_all [same, keyText]

theorem textless_cons (k v : Value) (es : List (Value × Value)) :
    textless ((k, v) :: es) = if k.keyText.isNone then (k, v) :: textless es else textless es :=
  List.filter_cons

theorem textless_insertAll {fs : List (Value × Value)} (h : Rewritten fs)
    (hd : DistinctKeys (textless fs)) : textless (insertAll [] fs) = textless fs := by
  induction fs using storing_induction with
  | nil => rfl
  | cons k v fs ih =>
    have hk : ∀ s, k.keyText = some s → k = .str s := h _ List.mem_cons_self
    have hfs : Rewritten fs := fun f hf => h f (List.mem_cons_of_mem _ hf)
    rw [textless_cons] at hd
    have hkeep : ∀ f ∈ textless fs, k.same f.1 = false := by
      intro f hf
      cases ht : k.keyText with
      | some s =>
        rw [hk s ht]
        exact str_same_of_textless (by simpa using (List.mem_filter.mp hf).2) s
      | none =>
        rw [ht, Option.isNone_none, if_pos rfl] at hd
        exact (List.pairwise_cons.mp hd).1 f hf
    have hrest : textless (fs.filter (fun f => !k.same f.1)) = textless fs := by
      have hall : (textless fs).filter (fun f => !k.same f.1) = textless fs :=
        List.filter_eq_self.mpr (fun f hf => by simp [hkeep f hf])
      rwa [textless, List.filter_comm] at hall
    have htail : DistinctKeys (textless fs) := by
      split at hd
      · exact (List.pairwise_cons.mp hd).2
      · exact hd
    have hstored := ih (fun f hf => hfs f (List.mem_of_mem_filter hf)) (hrest.symm ▸ htail)
    rw [insertAll_nil_cons, textless_cons, textless_cons, hstored, hrest]
    cases ht : k.keyText with
    | some s => rfl
    | none =>
      have hnone : fs.reverse.find? (fun f => k.same f.1) = none := by
        rw [List.find?_eq_none]
        intro f hf hsame
        rw [List.mem_reverse] at hf
        cases hft : f.1.keyText with
        | none => simp [hkeep f (List.mem_filter.mpr ⟨hf, by simp [hft]⟩)] at hsame
        | some t => simp [hfs f hf t hft, same_str_of_rewritten hk, ht] at hsame
      rw [hnone]
      rfl

end Storing

section Rewriting

theorem keyText_stringKey (k : Value) : (stringKey k).keyText = k.keyText := by
  unfold stringKey
  split
  · next s hs => rw [hs, keyText]
  · rfl

theorem stringKey_of_textless {k : Value} (h : k.keyText = none) : stringKey k = k := by
  rw [stringKey, h]

theorem rewritten_stringKeysEntries (es : List (Value × Value)) :
    Rewritten (stringKeysEntries es) := by
  rw [stringKeysEntries_eq_map]
  intro f hf s hs
  obtain ⟨e, _, rfl⟩ := List.mem_map.mp hf
  rw [keyText_stringKey] at hs
  rw [stringKey, hs]

theorem keyTexts_stringKeysEntries (es : List (Value × Value)) :
    keyTexts (stringKeysEntries es) = keyTexts es := by
  rw [stringKeysEntries_eq_map, keyTexts, List.filterMap_map]
  exact List.filterMap_congr (fun e _ => keyText_stringKey e.1)

theorem textless_stringKeysEntries (es : List (Value × Value)) :
    textless (stringKeysEntries es) = (textless es).map (fun e => (e.1, e.2.stringKeys)) := by
  rw [stringKeysEntries_eq_map, textless, List.filter_map]
  simp only [Function.comp_def, keyText_stringKey]
  refine List.map_congr_left (fun e he => ?_)
  rw [stringKey_of_textless (by simpa using (List.mem_filter.mp he).2)]

theorem DistinctKeys.distinctTexts {es : List (Value × Value)} (hd : DistinctKeys es)
    (hr : Rewritten es) : DistinctTexts es := by
  refine (List.Pairwise.and_mem.mp hd).filterMap _ ?_
  intro e f hef s hs t ht
  obtain ⟨he, hf, hsame⟩ := hef
  rw [hr e he s hs, hr f hf t ht] at hsame
  simpa [same] using hsame

theorem settles_stringKeysEntries (es : List (Value × Value)) :
    Settles es (insertAll [] (stringKeysEntries es)) := by
  have hstrings : Rewritten (insertAll [] (stringKeysEntries es)) :=
    Rewritten.insertAll (by simp [Rewritten]) es
  refine ⟨hstrings, (distinctKeys_insertAll _).distinctTexts hstrings, ?_⟩
  rw [keyTexts_insertAll (rewritten_stringKeysEntries es), keyTexts_stringKeysEntries]

theorem everywhere_stringKeys {P : List (Value × Value) → Prop}
    (h : ∀ es, P (insertAll [] (stringKeysEntries es))) (v : Value) : v.stringKeys.Everywhere P := by
  induction v using tree_induction with
  | null | bool b | int i | float x | str s => simp [Everywhere, stringKeys, mappings]
  | seq vs ih =>
    rw [stringKeys, everywhere_seq, stringKeysItems_eq_map, List.forall_mem_map]
    exact ih
  | map es ih =>
    rw [stringKeys, ofEntries, everywhere_map]
    refine ⟨h es, ?_⟩
    have hvalues : ∀ f ∈ stringKeysEntries es, True ∧ f.2.Everywhere P := by
      rw [stringKeysEntries_eq_map, List.forall_mem_map]
      exact fun e he => ⟨trivial, (ih e he).2⟩
    have hall : ∀ f ∈ insertAll [] (stringKeysEntries es), True ∧ f.2.Everywhere P :=
      forall_mem_insertAll (P := fun _ => True) (Q := fun w => w.Everywhere P) (by simp) hvalues
    exact fun f hf => (hall f hf).2
  | tagged t v ih => exact ih

theorem stringKeys_stringKeys (v : Value) : v.stringKeys.stringKeys = v.stringKeys :=
  stringKeys_eq_self (everywhere_stringKeys (fun _ => distinctKeys_insertAll _) v)
    (everywhere_stringKeys (fun es => (settles_stringKeysEntries es).strings) v)

end Rewriting

section Reach

theorem mem_of_findLast {name : String} {es : List (Value × Value)} {w : Value}
    (h : findLast name es = some w) : ∃ e ∈ es, e.2 = w := by
  induction es with
  | nil => cases h
  | cons e es ih =>
    obtain ⟨k, v⟩ := e
    rw [findLast, Option.or_eq_some_iff] at h
    rcases h with hlast | ⟨_, hfirst⟩
    · obtain ⟨e, he, hw⟩ := ih hlast
      exact ⟨e, List.mem_cons_of_mem _ he, hw⟩
    · split at hfirst
      · exact ⟨(k, v), List.mem_cons_self, Option.some.inj hfirst⟩
      · cases hfirst

theorem findLast_insertAll (name : String) (es : List (Value × Value)) :
    findLast name (insertAll [] (stringKeysEntries es)) = (findLast name es).map stringKeys := by
  have hsettled := settles_stringKeysEntries es
  rw [findLast_eq_findKey name hsettled.distinct, findKey, Rewritten.findText_eq hsettled.strings,
    Option.or_self, findExact_insertAll, findExact, Option.or_none]

theorem turn_stringKeys {v : Value} (h : v.Everywhere DistinctKeys) (t : Turn) :
    v.stringKeys.turn t = (v.turn t).map stringKeys := by
  cases v with
  | null | bool b | int i | float x | str s => rfl
  | seq vs =>
    cases t with
    | item i => simp [stringKeys, turn, stringKeysItems_eq_map]
    | content | named s | unnamed i => rfl
  | map es =>
    cases t with
    | item i | content => rfl
    | named s => exact findLast_insertAll s es
    | unnamed i =>
      have hd : DistinctKeys (textless es) := (everywhere_map.mp h).1.sublist List.filter_sublist
      have hstored : DistinctKeys (textless (stringKeysEntries es)) := by
        rw [textless_stringKeysEntries, DistinctKeys, List.pairwise_map]
        exact hd
      rw [stringKeys, ofEntries, turn, turn,
        textless_insertAll (rewritten_stringKeysEntries es) hstored, textless_stringKeysEntries,
        List.getElem?_map, Option.map_map, Option.map_map]
      rfl
  | tagged tag v =>
    cases t with
    | content => rfl
    | item i | named s | unnamed i => rfl

theorem everywhere_turn {P : List (Value × Value) → Prop} {v w : Value} {t : Turn}
    (h : v.Everywhere P) (hw : v.turn t = some w) : w.Everywhere P := by
  cases v with
  | null | bool b | int i | float x | str s => cases hw
  | seq vs =>
    cases t with
    | item i => exact everywhere_seq.mp h w (List.mem_of_getElem? hw)
    | content | named s | unnamed i => cases hw
  | map es =>
    have hvalues := (everywhere_map.mp h).2
    cases t with
    | item i | content => cases hw
    | named s =>
      obtain ⟨e, he, rfl⟩ := mem_of_findLast hw
      exact hvalues e he
    | unnamed i =>
      obtain ⟨e, he, rfl⟩ := Option.map_eq_some_iff.mp hw
      exact hvalues e (List.mem_of_mem_filter (List.mem_of_getElem? he))
  | tagged tag v =>
    cases t with
    | content =>
      cases hw
      exact h
    | item i | named s | unnamed i => cases hw

theorem reach_cons (v : Value) (t : Turn) (ts : List Turn) :
    v.reach (t :: ts) = (v.turn t).bind (fun w => w.reach ts) := List.foldlM_cons

theorem reach_stringKeys {v : Value} (h : v.Everywhere DistinctKeys) (turns : List Turn) :
    v.stringKeys.reach turns = (v.reach turns).map stringKeys := by
  induction turns generalizing v with
  | nil => rfl
  | cons t ts ih =>
    rw [reach_cons, reach_cons, turn_stringKeys h]
    cases hw : v.turn t with
    | none => rfl
    | some w => exact ih (everywhere_turn h hw)

theorem exists_reach {v : Value} (h : v.Everywhere DistinctTexts) {fs : List (Value × Value)}
    (hfs : fs ∈ v.mappings) : ∃ turns, v.reach turns = some (.map fs) := by
  induction v using tree_induction with
  | null | bool b | int i | float x | str s => simp [mappings] at hfs
  | seq vs ih =>
    rw [mappings, mappingsItems_eq_flatMap] at hfs
    obtain ⟨w, hw, hfs⟩ := List.mem_flatMap.mp hfs
    obtain ⟨turns, hturns⟩ := ih w hw (everywhere_seq.mp h w hw) hfs
    obtain ⟨i, hi⟩ := List.mem_iff_getElem?.mp hw
    exact ⟨.item i :: turns, by rw [reach_cons, turn, hi]; exact hturns⟩
  | map es ih =>
    obtain ⟨hnodup, hvalues⟩ := everywhere_map.mp h
    rw [mappings, mappingsEntries_eq_flatMap] at hfs
    rcases List.mem_cons.mp hfs with rfl | hfs
    · exact ⟨[], rfl⟩
    · obtain ⟨e, he, hfs⟩ := List.mem_flatMap.mp hfs
      obtain ⟨turns, hturns⟩ := (ih e he).2 (hvalues e he) hfs
      obtain ⟨t, ht⟩ : ∃ t, (Value.map es).turn t = some e.2 := by
        cases hk : e.1.keyText with
        | some s =>
          have hfound : findKey s es = some e.2 := (findKey_eq_some_iff hnodup).mpr ⟨e.1, he, hk⟩
          exact ⟨.named s, by rw [turn, findLast_eq_findKey s hnodup, hfound]⟩
        | none =>
          have hmem : e ∈ textless es := List.mem_filter.mpr ⟨he, by simp [hk]⟩
          obtain ⟨i, hi⟩ := List.mem_iff_getElem?.mp hmem
          exact ⟨.unnamed i, by rw [turn, hi]; rfl⟩
      exact ⟨t :: turns, by rw [reach_cons, ht]; exact hturns⟩
  | tagged tag v ih =>
    obtain ⟨turns, hturns⟩ := ih h hfs
    exact ⟨.content :: turns, by rw [reach_cons, turn]; exact hturns⟩

theorem settledFrom_stringKeys {v : Value} (h : v.Everywhere DistinctKeys) :
    SettledFrom v v.stringKeys := by
  constructor
  · intro fs hfs
    exact exists_reach (everywhere_stringKeys (fun es => (settles_stringKeysEntries es).distinct) v) hfs
  · intro turns fs hfs
    rw [reach_stringKeys h] at hfs
    obtain ⟨w, hw, hmap⟩ := Option.map_eq_some_iff.mp hfs
    cases w with
    | map es =>
      cases hmap
      exact ⟨es, hw, settles_stringKeysEntries es⟩
    | null | bool b | int i | float x | str s | seq vs | tagged tag w => cases hmap
  · intro turns es hes
    exact ⟨_, by rw [reach_stringKeys h, hes]; rfl⟩

end Reach

end Value

namespace Context

/-- Normalizing again changes nothing, so the normal form makes the same document. In it every mapping
stands for a mapping of the value, where the same turns lead, and has the texts among that one's keys as
string keys, each once and in the order in which they first come. -/
theorem normalize_settles (v : Value) (hv : Yaml.RoundTrips v) (hs : Yaml.RoundTrips v.stringKeys) :
    (v.normalize >>= Value.normalize) = v.normalize ∧
      (Yaml.Writable v → ∃ n, v.normalize = .ok n) ∧
      ∀ n, v.normalize = .ok n → n.normalize = .ok n ∧ Value.SettledFrom v n ∧
        ∀ config c, build config c n = build config c v := by
  have hagain : ∀ n, v.normalize = .ok n → n.normalize = .ok n ∧ Value.SettledFrom v n := by
    intro n hn
    obtain ⟨hw, hd, rfl⟩ := Value.normalize_eq_ok hn hv
    obtain ⟨text, htext⟩ := hw.stringKeys hd
    have hnormal := Value.normalize_eq htext (hs text htext)
    rw [Value.stringKeys_stringKeys] at hnormal
    exact ⟨hnormal, Value.settledFrom_stringKeys hd⟩
  refine ⟨?_, ?_, ?_⟩
  · cases hn : v.normalize with
    | error e => rfl
    | ok n => exact (hagain n hn).1
  · intro hw
    obtain ⟨text, htext⟩ := hw
    exact ⟨v.stringKeys, Value.normalize_eq htext (hv text htext)⟩
  · intro n hn
    obtain ⟨hnormal, hsettled⟩ := hagain n hn
    refine ⟨hnormal, hsettled, fun config c => ?_⟩
    rw [build, build, hn, hnormal]

def collidingSample : Value :=
  .map [(.int 1, .null), (.seq [.int 1], .tagged "t" (.map [(.float ⟨0x3FF8000000000000⟩, .null)])),
    (.tagged "x" (.str "true"), .null), (.null, .bool false), (.bool true, .str "b"),
    (.str "1", .map [(.str "true", .int 3), (.bool true, .int 4)])]

def settledSample : Value :=
  .map [(.str "1", .map [(.str "true", .int 4)]),
    (.seq [.int 1], .tagged "t" (.map [(.str "1.5", .null)])), (.str "true", .str "b"),
    (.null, .bool false)]

theorem normalize_settles_colliding :
    collidingSample.normalize = .ok settledSample ∧ settledSample.normalize = .ok settledSample ∧
      Value.SettledFrom collidingSample settledSample := by
  have hrewritten : collidingSample.stringKeys = settledSample :=
    Value.eq_of_identical (by decide +kernel)
  have hv : Yaml.ReadsBack collidingSample := .of_readsBack (by decide +kernel)
  have hs : Yaml.ReadsBack settledSample := .of_readsBack (by decide +kernel)
  have hn := Value.normalize_of_readsBack (Yaml.writable_iff.mpr (by decide +kernel)) hv
  rw [hrewritten] at hn
  obtain ⟨-, -, h⟩ := normalize_settles collidingSample hv.value (hrewritten ▸ hs.value)
  obtain ⟨hagain, hsettled, -⟩ := h settledSample hn
  exact ⟨hn, hagain, hsettled⟩

end Context

end ComponentDoc
