import Mathlib.Data.List.Basic
import ComponentDoc.Proofs.Extraction

set_option autoImplicit false

namespace ComponentDoc

namespace Value

def lastValues (es : List (String × Value)) : List (String × Value) :=
  (es.map Prod.fst).eraseDups.filterMap (fun n => (es.reverse.lookup n).map (Prod.mk n))

theorem lookup_filter_ne {name other : String} (h : other ≠ name) (es : List (String × Value)) :
    (es.filter (fun e => !e.1 == name)).lookup other = es.lookup other := by
  induction es with
  | nil => rfl
  | cons e es ih =>
    obtain ⟨n, v⟩ := e
    by_cases hn : n = name
    · subst hn
      simp [ih, List.lookup_cons, beq_eq_false_iff_ne.mpr h]
    · simp [hn, ih, List.lookup_cons]

theorem lastValues_cons (name : String) (v : Value) (es : List (String × Value)) :
    lastValues ((name, v) :: es) =
      (name, (es.reverse.lookup name).getD v) :: lastValues (es.filter (fun e => !e.1 == name)) := by
  have hhead : ((name, v) :: es).reverse.lookup name = some ((es.reverse.lookup name).getD v) := by
    rw [List.reverse_cons, List.lookup_append]
    cases es.reverse.lookup name <;> simp
  have hnames : (es.map Prod.fst).filter (fun n => !n == name) =
      (es.filter (fun e => !e.1 == name)).map Prod.fst := List.filter_map
  have htail : ∀ n ∈ ((es.filter (fun e => !e.1 == name)).map Prod.fst).eraseDups,
      ((name, v) :: es).reverse.lookup n =
        (es.filter (fun e => !e.1 == name)).reverse.lookup n := by
    intro n hn
    rw [List.mem_eraseDups, ← hnames, List.mem_filter] at hn
    have hne : n ≠ name := by simpa using hn.2
    rw [← List.filter_reverse, lookup_filter_ne hne, List.reverse_cons, List.lookup_append]
    simp [List.lookup_cons, beq_eq_false_iff_ne.mpr hne]
  rw [lastValues, List.map_cons, List.eraseDups_cons, hnames, List.filterMap_cons, hhead,
    List.filterMap_congr (fun n hn => congrArg (Option.map (Prod.mk n)) (htail n hn)), lastValues]
  rfl

theorem lookup_map (change : Value → Value) (name : String) (es : List (String × Value)) :
    (es.map (fun e => (e.1, change e.2))).lookup name = (es.lookup name).map change := by
  induction es with
  | nil => rfl
  | cons e es ih =>
    rw [List.map_cons, List.lookup_cons, List.lookup_cons, ih]
    cases name == e.1 <;> rfl

theorem lastValues_map (change : Value → Value) (es : List (String × Value)) :
    lastValues (es.map (fun e => (e.1, change e.2))) =
      (lastValues es).map (fun e => (e.1, change e.2)) := by
  have hnames : (es.map (fun e => (e.1, change e.2))).map Prod.fst = es.map Prod.fst := by
    rw [List.map_map]
    rfl
  rw [lastValues, lastValues, hnames, List.map_filterMap, ← List.map_reverse]
  simp only [lookup_map, Option.map_map, Function.comp_def]

/-- A name stands where it comes first and has the value that comes last. -/
theorem insertAll_nil_textKeyed : ∀ es : List (String × Value),
    insertAll [] (textKeyed es) = textKeyed (lastValues es)
  | [] => rfl
  | (name, v) :: es => by
    have ih := insertAll_nil_textKeyed (es.filter (fun e => !e.1 == name))
    have hsame : ∀ s, Value.same (.str name) (.str s) = (s == name) := by
      intro s
      rw [same, Bool.beq_comm]
    have hlast : ((textKeyed es).reverse.find? (fun f => Value.same (.str name) f.1)).map Prod.snd =
        es.reverse.lookup name := by
      rw [textKeyed, ← List.map_reverse]
      exact find_textKeyed (Value.same (.str name)) hsame es.reverse
    have hrest : (textKeyed es).filter (fun f => !Value.same (.str name) f.1) =
        textKeyed (es.filter (fun e => !e.1 == name)) := by
      rw [textKeyed, List.filter_map]
      simp only [Function.comp_def, hsame]
      rfl
    rw [textKeyed_cons, insertAll, insert, insertAll_cons, hlast, hrest, ih, lastValues_cons,
      textKeyed_cons]
termination_by es => es.length
decreasing_by exact Nat.lt_succ_of_le (List.length_filter_le _ _)

theorem ofEntries_textKeyed_last (es : List (String × Value)) :
    ofEntries (textKeyed es) = .map (textKeyed (lastValues es)) :=
  congrArg Value.map (insertAll_nil_textKeyed es)

theorem lookup_lastValues (name : String) (es : List (String × Value)) :
    (lastValues es).lookup name = es.reverse.lookup name := by
  have hlookup : ∀ ns : List String,
      (ns.filterMap (fun n => (es.reverse.lookup n).map (Prod.mk n))).lookup name =
        if name ∈ ns then es.reverse.lookup name else none := by
    intro ns
    induction ns with
    | nil => rfl
    | cons n ns ih =>
      rw [List.filterMap_cons]
      by_cases hn : name = n
      · subst hn
        cases hv : es.reverse.lookup name <;> simp [hv, ih]
      · cases hv : es.reverse.lookup n <;>
          simp [ih, hn, List.lookup_cons, beq_eq_false_iff_ne.mpr hn]
  rw [lastValues, hlookup]
  split
  · rfl
  · next hmem =>
    rw [List.mem_eraseDups] at hmem
    rw [eq_comm, List.lookup_eq_none_iff]
    intro e he
    rw [List.mem_reverse] at he
    exact bne_iff_ne.mpr (fun hn => hmem (hn ▸ List.mem_map_of_mem he))

theorem getKey_ofEntries_textKeyed (name : String) (es : List (String × Value)) :
    (ofEntries (textKeyed es)).getKey name = es.reverse.lookup name := by
  rw [ofEntries_textKeyed_last, getKey_textKeyed, lookup_lastValues]

theorem ofEntries_textKeyed_congr {es fs : List (String × Value)}
    (hnames : es.map Prod.fst = fs.map Prod.fst)
    (hlast : ∀ n, es.reverse.lookup n = fs.reverse.lookup n) :
    ofEntries (textKeyed es) = ofEntries (textKeyed fs) := by
  rw [ofEntries_textKeyed_last, ofEntries_textKeyed_last, lastValues, lastValues, hnames]
  simp only [hlast]

end Value

open Schema

namespace Tiers

variable {keep : Declaration → Bool}

/-- The field that decides on a name: of those that bear it and are kept, the last. -/
def decisive (keep : Declaration → Bool) (fs : List Field) (name : String) : Option Field :=
  fs.reverse.find? (fun f => keep f.declaration && f.name == name)

theorem decisive_cons (d : Declaration) (gs fs : List Field) (name : String) :
    decisive keep (⟨d, gs⟩ :: fs) name =
      (decisive keep fs name).or (if keep d && d.name == name then some ⟨d, gs⟩ else none) := by
  rw [decisive, List.reverse_cons, List.find?_append, decisive, List.find?_singleton]
  rfl

theorem decisive_eq_some {f : Field} {fs : List Field} {name : String}
    (h : decisive keep fs name = some f) : f ∈ fs ∧ keep f.declaration = true ∧ f.name = name := by
  have htest := List.find?_some h
  simp only [Bool.and_eq_true, beq_iff_eq] at htest
  exact ⟨List.mem_reverse.mp (List.mem_of_find?_eq_some h), htest⟩

theorem lookup_reverse_kept (name : String) (v : Value) (fs : List Field) :
    (kept keep v fs).reverse.lookup name =
      (decisive keep fs name).bind (fun f => (v.getKey name).map (copied keep f.children)) := by
  induction fs with
  | nil => rfl
  | cons f fs ih =>
    obtain ⟨d, gs⟩ := f
    have hfield : (keptField keep v ⟨d, gs⟩).reverse.lookup name =
        if keep d && d.name == name then (v.getKey name).map (copied keep gs) else none := by
      rw [keptField_node]
      by_cases hn : d.name = name
      · subst hn
        cases keep d <;> cases v.getKey d.name <;> simp
      · cases keep d <;> cases v.getKey d.name <;>
          simp [hn, List.lookup_cons, beq_eq_false_iff_ne.mpr (Ne.symm hn)]
    rw [kept_cons, List.reverse_append, List.lookup_append, ih, decisive_cons, hfield]
    cases decisive keep fs name with
    | none => cases keep d && d.name == name <;> rfl
    | some g => cases v.getKey name <;> simp

theorem getKey_extracted_eq (name : String) (v : Value) (fs : List Field) :
    (extracted keep v fs).getKey name =
      (decisive keep fs name).bind (fun f => (v.getKey name).map (copied keep f.children)) := by
  rw [extracted, Value.getKey_ofEntries_textKeyed, lookup_reverse_kept]

theorem exists_of_getKey_extracted {name : String} {v w : Value} {fs : List Field}
    (h : (extracted keep v fs).getKey name = some w) :
    ∃ d gs u, ⟨d, gs⟩ ∈ fs ∧ keep d = true ∧ d.name = name ∧ v.getKey name = some u ∧
      w = copied keep gs u := by
  rw [getKey_extracted_eq] at h
  obtain ⟨⟨d, gs⟩, hd, h⟩ := Option.bind_eq_some_iff.mp h
  obtain ⟨u, hu, rfl⟩ := Option.map_eq_some_iff.mp h
  obtain ⟨hmem, hk, hname⟩ := decisive_eq_some hd
  exact ⟨d, gs, u, hmem, hk, hname, hu, rfl⟩

theorem getKey_extracted_isSome {f : Field} {fs : List Field} (hmem : f ∈ fs)
    (hk : keep f.declaration = true) (v : Value) :
    ((extracted keep v fs).getKey f.name).isSome = (v.getKey f.name).isSome := by
  obtain ⟨g, hg⟩ : ∃ g, decisive keep fs f.name = some g := by
    rw [← Option.isSome_iff_exists, decisive, List.find?_isSome]
    exact ⟨f, List.mem_reverse.mpr hmem, by simp [hk]⟩
  rw [getKey_extracted_eq, hg, Option.bind_some, Option.isSome_map]

end Tiers

end ComponentDoc
