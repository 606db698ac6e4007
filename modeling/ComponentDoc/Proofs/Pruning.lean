import Mathlib.Data.List.Find
import ComponentDoc.Proofs.Addressing
import ComponentDoc.Proofs.EntryChange
import ComponentDoc.Proofs.StrayEntries

/-!
An example without its undeclared entries. At the root and beneath each declaration with children, an
entry whose key reads as a text that no field there bears is taken out. Reconciliation has nothing left to
report then, and lists the same fields; the tiers are the same, or the same failure. All else in the
example stays as it is, entries under keys without a text among it.
-/

set_option autoImplicit false

namespace ComponentDoc

namespace Value

/-- The key reads as one of the names, or has no text at all. -/
def isDeclared (names : List String) (key : Value) : Bool := key.keyText.all names.contains

theorem findKey_filter_isDeclared {name : String} {names : List String} (h : name ∈ names)
    (es : List (Value × Value)) :
    findKey name (es.filter (fun e => isDeclared names e.1)) = findKey name es := by
  have hkept : ∀ test : Value → Bool, (∀ k, test k = true → k.keyText = some name) →
      (es.filter (fun e => isDeclared names e.1)).find? (fun e => test e.1) =
        es.find? (fun e => test e.1) := by
    intro test htest
    rw [List.find?_filter]
    refine List.find?_congr (fun e _ => ?_)
    cases ht : test e.1 with
    | false => simp
    | true => simp [isDeclared, htest e.1 ht, h]
  rw [findKey, findKey, findExact_eq_find, findExact_eq_find, findText_eq_find, findText_eq_find,
    hkept _ (fun _ => keyText_of_same_str), hkept _ (fun k hk => beq_iff_eq.mp hk)]

end Value

mutual

def Field.prune : Field → Value → Value
  | ⟨d, gs⟩, v =>
    if gs.isEmpty then v
    else v.onEntries (Value.changeFound d.name (fun w =>
      (Schema.pruneBelow gs w).onEntries (List.filter (fun e =>
        Value.isDeclared (gs.map Field.name) e.1))))

def Schema.pruneBelow : List Field → Value → Value
  | [], v => v
  | f :: fs, v => Schema.pruneBelow fs (f.prune v)

end

/-- The example without its undeclared entries. -/
def Schema.prune (fs : List Field) (v : Value) : Value :=
  (pruneBelow fs v).onEntries (List.filter (fun e => Value.isDeclared (fs.map Field.name) e.1))

def Schema.pruned (fs : List Field) (v : Value) : Value := if fs.isEmpty then v else prune fs v

open Schema Tiers

namespace Field

variable (d : Declaration) (gs : List Field) (v : Value)

theorem prune_node :
    prune ⟨d, gs⟩ v =
      if gs.isEmpty then v else v.onEntries (Value.changeFound d.name (Schema.prune gs)) := rfl

theorem getKey_prune (name : String) :
    (prune ⟨d, gs⟩ v).getKey name =
      if name = d.name then (v.getKey d.name).map (pruned gs) else v.getKey name := by
  rw [prune_node]
  cases gs with
  | nil =>
    have hpruned : pruned [] = id := rfl
    by_cases hn : name = d.name <;> simp [hn, hpruned]
  | cons g gs =>
    have hpruned : pruned (g :: gs) = Schema.prune (g :: gs) := rfl
    rw [if_neg (by simp), Value.getKey_onEntries, hpruned, Value.getKey, Value.getKey]
    cases v.asMapping with
    | none => simp
    | some es => simp [Value.findKey_changeFound]

theorem prune_eq_self
    (h : gs ≠ [] → ∀ w, v.getKey d.name = some w → Schema.prune gs w = w) :
    prune ⟨d, gs⟩ v = v := by
  rw [prune_node]
  split
  · rfl
  · next hgs =>
    refine Value.onEntries_eq_self _ v (fun es hes => Value.changeFound_eq_self (fun w hw => ?_))
    refine h (by simpa using hgs) w ?_
    rw [Value.getKey, hes, Option.bind_some, hw]

@[simp] theorem kind_prune (f : Field) : (f.prune v).kind = v.kind := by
  obtain ⟨d, gs⟩ := f
  rw [prune_node]
  split <;> simp

@[simp] theorem keys_prune (f : Field) : (f.prune v).keys = v.keys := by
  obtain ⟨d, gs⟩ := f
  rw [prune_node]
  split
  · rfl
  · simp [Value.keys, Function.comp_def]

end Field

namespace Schema

variable {fs gs : List Field} {d : Declaration}

@[simp] theorem kind_pruneBelow (fs : List Field) (v : Value) : (pruneBelow fs v).kind = v.kind := by
  induction fs generalizing v with
  | nil => rfl
  | cons f fs ih => simp [pruneBelow, ih]

@[simp] theorem keys_pruneBelow (fs : List Field) (v : Value) : (pruneBelow fs v).keys = v.keys := by
  induction fs generalizing v with
  | nil => rfl
  | cons f fs ih => simp [pruneBelow, ih]

theorem getKey_pruneBelow_of_notMem {name : String} (h : name ∉ fs.map Field.name) (v : Value) :
    (pruneBelow fs v).getKey name = v.getKey name := by
  induction fs generalizing v with
  | nil => rfl
  | cons f fs ih =>
    obtain ⟨d, gs⟩ := f
    rw [List.map_cons, Field.name_node, List.mem_cons, not_or] at h
    rw [pruneBelow, ih h.2, Field.getKey_prune, if_neg h.1]

theorem getKey_pruneBelow (hnodup : (fs.map Field.name).Nodup) (hmem : ⟨d, gs⟩ ∈ fs) (v : Value) :
    (pruneBelow fs v).getKey d.name = (v.getKey d.name).map (pruned gs) := by
  induction fs generalizing v with
  | nil => cases hmem
  | cons f fs ih =>
    obtain ⟨e, hs⟩ := f
    rw [List.map_cons, List.nodup_cons, Field.name_node] at hnodup
    rw [pruneBelow]
    rcases List.mem_cons.mp hmem with heq | hbeside
    · cases heq
      rw [getKey_pruneBelow_of_notMem hnodup.1, Field.getKey_prune, if_pos rfl]
    · have hne : d.name ≠ e.name := by
        intro heq
        exact hnodup.1 (heq ▸ List.mem_map_of_mem hbeside)
      rw [ih hnodup.2 hbeside, Field.getKey_prune, if_neg hne]

@[simp] theorem kind_prune (fs : List Field) (v : Value) : (prune fs v).kind = v.kind := by
  simp [prune]

theorem keys_prune (fs : List Field) (v : Value) :
    (prune fs v).keys = v.keys.map (List.filter (Value.isDeclared (fs.map Field.name))) := by
  rw [← keys_pruneBelow fs v, prune, Value.keys, Value.asMapping_onEntries, Value.keys,
    Option.map_map, Option.map_map]
  congr 1
  funext es
  simp only [Function.comp_apply, List.filter_map]
  rfl

theorem getKey_prune (hnodup : (fs.map Field.name).Nodup) (hmem : ⟨d, gs⟩ ∈ fs) (v : Value) :
    (prune fs v).getKey d.name = (v.getKey d.name).map (pruned gs) := by
  have hname : d.name ∈ fs.map Field.name := List.mem_map_of_mem hmem
  rw [← getKey_pruneBelow hnodup hmem, prune, Value.getKey_onEntries, Value.getKey]
  simp only [Value.findKey_filter_isDeclared hname]

theorem pruneBelow_eq_self {v : Value}
    (h : ∀ d gs, ⟨d, gs⟩ ∈ fs → gs ≠ [] → ∀ w, v.getKey d.name = some w → prune gs w = w) :
    pruneBelow fs v = v := by
  induction fs with
  | nil => rfl
  | cons f fs ih =>
    obtain ⟨d, gs⟩ := f
    rw [pruneBelow, Field.prune_eq_self d gs v (h d gs List.mem_cons_self)]
    exact ih (fun d gs hmem => h d gs (List.mem_cons_of_mem _ hmem))

theorem prune_eq_self {v : Value} (h : Covers Value.getKey fs v) : prune fs v = v := by
  induction fs using Field.level_induction generalizing v with
  | level fs ih =>
    have hbelow : pruneBelow fs v = v := by
      refine pruneBelow_eq_self (fun d gs hmem hne w hw => ih d gs hmem ?_)
      exact h.child hmem hne hw
    rw [prune, hbelow]
    refine Value.onEntries_eq_self _ v (fun es hes => ?_)
    rw [List.filter_eq_self]
    intro e he
    rw [Value.isDeclared, Option.all_eq_true]
    intro k hk
    have hchild : k ∈ v.childKeys := by
      rw [Value.childKeys, hes, Option.map_some, Option.getD_some]
      exact List.mem_filterMap.mpr ⟨e, he, hk⟩
    simpa using h.root k hchild

theorem pruned_of_ne_nil (h : fs ≠ []) : pruned fs = prune fs := by
  funext v
  rw [pruned, if_neg (by simpa using h)]

@[simp] theorem kind_pruned (fs : List Field) (v : Value) : (pruned fs v).kind = v.kind := by
  unfold pruned
  split <;> simp

theorem typeName_pruned (fs : List Field) (v : Value) : (pruned fs v).typeName = v.typeName := by
  rw [Value.typeName, kind_pruned, Value.typeName]

theorem mem_names_of_childKeys_prune {k : String} {v : Value} (h : k ∈ (prune fs v).childKeys) :
    k ∈ fs.map Field.name := by
  rw [Value.childKeys_eq, keys_prune] at h
  cases hv : v.keys with
  | none => simp [hv] at h
  | some ks =>
    rw [hv, Option.map_some, Option.map_some, Option.getD_some] at h
    obtain ⟨key, hmem, hk⟩ := List.mem_filterMap.mp h
    have hdeclared := (List.mem_filter.mp hmem).2
    rw [Value.isDeclared, hk] at hdeclared
    simpa using hdeclared

theorem Reaches.prune {ds : List Declaration} (hr : Reaches fs ds gs) (h : Distinct fs)
    {v w : Value} (hw : (ds.map Declaration.name).foldlM Value.getKey v = some w) :
    (ds.map Declaration.name).foldlM Value.getKey (Schema.prune fs v) = some (Schema.prune gs w) := by
  induction hr generalizing v with
  | here fs =>
    cases hw
    rfl
  | @beneath fs gs hs d ds hmem hne _ ih =>
    rw [List.map_cons, List.foldlM_cons] at hw ⊢
    obtain ⟨u, hu, hw⟩ := Option.bind_eq_some_iff.mp hw
    rw [getKey_prune h.1 hmem, hu, Option.map_some, pruned_of_ne_nil hne]
    exact ih (h.children hmem) hw

end Schema

namespace Place

variable {fs : List Field} {p : Place}

theorem found_prune (h : Distinct fs) (hp : p ∈ places fs) (v : Value) :
    p.found (prune fs v) = (p.found v).map (pruned p.children) := by
  induction hp using places_induction generalizing v with
  | top fs d gs hmem => simpa using getKey_prune h.1 hmem v
  | under fs d gs q hmem hq ih =>
    have hne : gs ≠ [] := children_ne_nil_of_mem hq
    rw [found_under, found_under, getKey_prune h.1 hmem, pruned_of_ne_nil hne]
    cases v.getKey d.name with
    | none => rfl
    | some w => exact ih (h.children hmem) w

theorem flat_prune (h : Distinct fs) (hp : p ∈ places fs) (v : Value) :
    p.flat (prune fs v) = p.flat v := by
  have htype : (p.found (prune fs v)).bind Value.typeName = (p.found v).bind Value.typeName := by
    rw [found_prune h hp]
    cases p.found v with
    | none => rfl
    | some w => exact typeName_pruned p.children w
  rw [flat, flat, Reconciliation.labelOf, Reconciliation.labelOf, htype]

theorem isBlocked_prune (h : Distinct fs) (hp : p ∈ places fs) (v : Value) :
    p.isBlocked (prune fs v) = p.isBlocked v := by
  rw [isBlocked, isBlocked, found_prune h hp]
  cases p.found v with
  | none => rfl
  | some w =>
    have hmapping := Value.isNone_asMapping_congr (kind_pruned p.children w)
    simp only [Option.map_some, Option.any_some, hmapping]

end Place

namespace Schema

variable {fs : List Field}

theorem covers_prune (h : Distinct fs) (v : Value) : Covers Value.getKey fs (prune fs v) := by
  constructor
  · exact fun _ hk => mem_names_of_childKeys_prune hk
  · intro p hp hc w hw k hk
    have hfound : p.found (prune fs v) = some w := hw
    rw [Place.found_prune h hp] at hfound
    obtain ⟨u, _, rfl⟩ := Option.map_eq_some_iff.mp hfound
    have hne : p.children ≠ [] := by simpa [Place.hasChildren] using hc
    rw [pruned_of_ne_nil hne] at hk
    exact mem_names_of_childKeys_prune hk

theorem firstBlocked_prune {keep : Declaration → Bool} (h : Distinct fs) (v : Value) :
    firstBlocked keep (prune fs v) fs = firstBlocked keep v fs :=
  List.find?_congr (fun p hp => by rw [Place.isBlocked_prune h hp])

end Schema

namespace Tiers

variable {keep : Declaration → Bool} {fs : List Field}

theorem extracted_prune (h : Distinct fs) (v : Value) :
    extracted keep (prune fs v) fs = extracted keep v fs := by
  induction fs using Field.level_induction generalizing v with
  | level fs ih =>
    have hcopied : ∀ d gs, ⟨d, gs⟩ ∈ fs → ∀ w, copied keep gs (pruned gs w) = copied keep gs w := by
      intro d gs hmem w
      cases gs with
      | nil => rfl
      | cons g gs => exact ih d (g :: gs) hmem (h.children hmem) w
    refine extracted_congr (fun d gs hmem _ => ?_)
    rw [getKey_prune h.1 hmem, Option.map_map]
    exact Option.map_congr (fun w _ => hcopied d gs hmem w)

theorem split_prune (hne : fs ≠ []) (h : Distinct fs) (v : Value) :
    split fs (prune fs v) = split fs v := by
  have hmapping := Value.isNone_asMapping_congr (kind_prune fs v)
  rw [split_eq hne h, split_eq hne h, hmapping, firstBlocked_prune h, extracted_prune h]

/-- Without its undeclared entries an example has no missing paths, and it has the same flattened fields
and the same tiers, or the same failure, as before. On each level that is reached nothing but these
entries is gone, and where there are none the example is as it was. -/
theorem split_reconcile_pruned (hne : fs ≠ []) (h : Distinct fs) (v : Value) :
    (reconcile fs (prune fs v)).missing = [] ∧
      (reconcile fs (prune fs v)).fields = (reconcile fs v).fields ∧
      split fs (prune fs v) = split fs v ∧
      (∀ ds gs w, Reaches fs ds gs → (ds.map Declaration.name).foldlM Value.getKey v = some w →
        ∃ u, (ds.map Declaration.name).foldlM Value.getKey (prune fs v) = some u ∧
          u.keys = w.keys.map (List.filter (Value.isDeclared (gs.map Field.name)))) ∧
      ((reconcile fs v).missing = [] ↔ prune fs v = v) := by
  have hmissing := reconcile_missing_eq_nil.mpr (covers_prune h v)
  refine ⟨hmissing, ?_, split_prune hne h v, ?_, ?_⟩
  · rw [reconcile_fields, reconcile_fields]
    exact List.map_congr_left (fun p hp => Place.flat_prune h hp v)
  · intro ds gs w hr hw
    exact ⟨prune gs w, hr.prune h hw, keys_prune gs w⟩
  · constructor
    · exact fun hnil => prune_eq_self (reconcile_missing_eq_nil.mp hnil)
    · intro heq
      rwa [heq] at hmissing

def strewnSample (mode : Value) : Value :=
  .map [(.str "extra", .null), (.null, .null), (.str "headers", .map [(.str "any", .null)]),
    (.str "source", .tagged "tcp" (.map [(.int 8, .null), (.int 7, .str "first"), (.seq [], .null),
      (.str "7", mode), (.str "8", .null)]))]

def sweptSample (mode : Value) : Value :=
  .map [(.null, .null), (.str "headers", .map [(.str "any", .null)]),
    (.str "source", .tagged "tcp" (.map [(.int 7, .str "first"), (.seq [], .null), (.str "7", mode)]))]

theorem split_reconcile_pruned_relay :
    (prune relayFields (strewnSample (.map [(.bool true, .null), (.str "mode", .int 1)])) =
        sweptSample (.map [(.str "mode", .int 1)]) ∧
      (reconcile relayFields (sweptSample (.map [(.str "mode", .int 1)]))).missing = [] ∧
      split relayFields (sweptSample (.map [(.str "mode", .int 1)])) =
        split relayFields (strewnSample (.map [(.bool true, .null), (.str "mode", .int 1)]))) ∧
    prune relayFields (strewnSample (.int 2)) = sweptSample (.int 2) ∧
      split relayFields (sweptSample (.int 2)) = split relayFields (strewnSample (.int 2)) ∧
      split relayFields (strewnSample (.int 2)) = .error (.notMapping "source.7") := by
  have hl : (lintFields "" relayFields).errors = [] := by decide +kernel
  have hd : Distinct relayFields := (lintFields_errors_eq_nil.mp hl).distinct
  have hne : relayFields ≠ [] := by simp [relayFields]
  have hmap : prune relayFields (strewnSample (.map [(.bool true, .null), (.str "mode", .int 1)])) =
      sweptSample (.map [(.str "mode", .int 1)]) := rfl
  have hint : prune relayFields (strewnSample (.int 2)) = sweptSample (.int 2) := rfl
  obtain ⟨hmissing, _, hsplit, _⟩ := split_reconcile_pruned hne hd
    (strewnSample (.map [(.bool true, .null), (.str "mode", .int 1)]))
  obtain ⟨_, _, hfails, _⟩ := split_reconcile_pruned hne hd (strewnSample (.int 2))
  rw [hmap] at hmissing hsplit
  rw [hint] at hfails
  exact ⟨⟨hmap, hmissing, hsplit⟩, hint, hfails, rfl⟩

end Tiers

end ComponentDoc
