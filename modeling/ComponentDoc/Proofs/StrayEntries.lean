import ComponentDoc.Proofs.Flattening

/-!
The entries of an example that no field of their level bears. A level is reached through declarations that
have children; each entry there whose key reads as a text that is the name of no field is reported once,
under the names on the way and that text. What stands beneath a declaration is reported before what stands
beside it, siblings in the order of their declarations and the keys of one level as they come.
-/

set_option autoImplicit false

namespace ComponentDoc

open Schema Reconciliation

/-- An undeclared entry: the declarations on the way to its level, outermost first, its position among
the entries there, and the text of its key. -/
structure StrayEntry where
  above : List Declaration
  position : Nat
  text : String

namespace StrayEntry

def names (e : StrayEntry) : List String := e.above.map Declaration.name

/-- Where an entry stands in an example. -/
def location (e : StrayEntry) : List String × Nat := (e.names, e.position)

/-- The path that an entry is reported under. -/
def path (e : StrayEntry) : String := Path.ofNames (e.names ++ [e.text])

def under (d : Declaration) (e : StrayEntry) : StrayEntry := { e with above := d :: e.above }

end StrayEntry

/-- Declarations with children, each beneath the one before, lead from the top level to a level of
fields. -/
inductive Schema.Reaches : List Field → List Declaration → List Field → Prop
  | here (fs : List Field) : Reaches fs [] fs
  | beneath {fs gs hs : List Field} {d : Declaration} {ds : List Declaration} :
      ⟨d, gs⟩ ∈ fs → gs ≠ [] → Reaches gs ds hs → Reaches fs (d :: ds) hs

namespace StrayEntry

/-- The example has the entry at a level that the schema reaches, where no field has the name that its
key reads as. -/
def StandsIn (fs : List Field) (v : Value) (e : StrayEntry) : Prop :=
  ∃ gs level es k w, Reaches fs e.above gs ∧ e.names.foldlM Value.getKey v = some level ∧
    level.asMapping = some es ∧ es[e.position]? = some (k, w) ∧ k.keyText = some e.text ∧
    e.text ∉ gs.map Field.name

/-- The order in which entries are reported. -/
inductive Precedes : List Field → StrayEntry → StrayEntry → Prop
  /-- On one level, the keys as they come. -/
  | keys {fs : List Field} {i j : Nat} {s t : String} : i < j → Precedes fs ⟨[], i, s⟩ ⟨[], j, t⟩
  /-- What is beneath a declaration, before what is beside it. -/
  | deeper {fs : List Field} {d : Declaration} {ds : List Declaration} {i j : Nat} {s t : String} :
      Precedes fs ⟨d :: ds, i, s⟩ ⟨[], j, t⟩
  /-- What is beneath siblings, as they are declared. -/
  | siblings {fs gs hs : List Field} {c d : Declaration} {cs ds : List Declaration} {i j : Nat}
      {s t : String} :
      [⟨c, gs⟩, ⟨d, hs⟩].Sublist fs → Precedes fs ⟨c :: cs, i, s⟩ ⟨d :: ds, j, t⟩
  /-- What is beneath the same declaration, as it comes there. -/
  | inside {fs gs : List Field} {d : Declaration} {x y : StrayEntry} :
      ⟨d, gs⟩ ∈ fs → Precedes gs x y → Precedes fs (x.under d) (y.under d)

@[simp] theorem names_under (d : Declaration) (e : StrayEntry) :
    (e.under d).names = d.name :: e.names := rfl

theorem path_under (d : Declaration) (e : StrayEntry) :
    (e.under d).path = d.name ++ "." ++ e.path :=
  Path.ofNames_cons (List.append_ne_nil_of_right_ne_nil _ (List.cons_ne_nil _ _))

theorem path_root (i : Nat) (s : String) : path ⟨[], i, s⟩ = s := Path.ofNames_singleton s

theorem Precedes.mono {fs gs : List Field} {x y : StrayEntry} (h : Precedes fs x y)
    (hs : fs.Sublist gs) : Precedes gs x y := by
  cases h with
  | keys hij => exact .keys hij
  | deeper => exact .deeper
  | siblings hcd => exact .siblings (hcd.trans hs)
  | inside hmem hxy => exact .inside (hs.subset hmem) hxy

theorem Precedes.location_ne {fs : List Field} {x y : StrayEntry} (h : Precedes fs x y)
    (hd : Distinct fs) : x.location ≠ y.location := by
  induction h with
  | keys hij => simp [location, Nat.ne_of_lt hij]
  | deeper => simp [location, names]
  | siblings hcd =>
    have hnames := (hcd.map Field.name).nodup hd.1
    simp only [List.map_cons, List.map_nil, Field.name_node, List.nodup_cons,
      List.mem_singleton] at hnames
    simp [location, names, hnames.1]
  | inside hmem _ ih =>
    have hne := ih (hd.children hmem)
    simpa [location, under, names] using hne

theorem standsIn_root {fs : List Field} {v : Value} {i : Nat} {s : String} :
    StandsIn fs v ⟨[], i, s⟩ ↔ ∃ es k w, v.asMapping = some es ∧ es[i]? = some (k, w) ∧
      k.keyText = some s ∧ s ∉ fs.map Field.name := by
  constructor
  · intro h
    obtain ⟨gs, level, es, k, w, hreach, hlevel, hes, hentry, hk, hs⟩ := h
    cases hreach
    cases hlevel
    exact ⟨es, k, w, hes, hentry, hk, hs⟩
  · intro h
    obtain ⟨es, k, w, hes, hentry, hk, hs⟩ := h
    exact ⟨fs, v, es, k, w, .here fs, rfl, hes, hentry, hk, hs⟩

theorem standsIn_under {fs : List Field} {v : Value} {d : Declaration} {e : StrayEntry} :
    StandsIn fs v (e.under d) ↔
      ∃ gs w, ⟨d, gs⟩ ∈ fs ∧ gs ≠ [] ∧ v.getKey d.name = some w ∧ StandsIn gs w e := by
  constructor
  · intro h
    obtain ⟨hs, level, es, k, w, hreach, hlevel, hentry⟩ := h
    cases hreach with
    | beneath hmem hne hreach =>
      rw [names_under, List.foldlM_cons] at hlevel
      obtain ⟨u, hu, hlevel⟩ := Option.bind_eq_some_iff.mp hlevel
      exact ⟨_, u, hmem, hne, hu, hs, level, es, k, w, hreach, hlevel, hentry⟩
  · intro h
    obtain ⟨gs, u, hmem, hne, hu, hs, level, es, k, w, hreach, hlevel, hentry⟩ := h
    refine ⟨hs, level, es, k, w, .beneath hmem hne hreach, ?_, hentry⟩
    rw [names_under, List.foldlM_cons, hu]
    exact hlevel

end StrayEntry

namespace Schema

def ownStrays (fs : List Field) (v : Value) : List StrayEntry :=
  (v.asMapping.getD []).zipIdx.filterMap (fun x =>
    (x.1.1.keyText.filter (fun s => !(fs.map Field.name).contains s)).map (fun s => ⟨[], x.2, s⟩))

mutual

def straysOf (v : Value) : Field → List StrayEntry
  | ⟨d, gs⟩ =>
    if gs.isEmpty then []
    else (v.getKey d.name).toList.flatMap (fun w =>
      (straysBelow w gs ++ ownStrays gs w).map (StrayEntry.under d))

def straysBelow (v : Value) : List Field → List StrayEntry
  | [] => []
  | f :: fs => straysOf v f ++ straysBelow v fs

end

/-- All undeclared entries of an example. -/
def strays (fs : List Field) (v : Value) : List StrayEntry := straysBelow v fs ++ ownStrays fs v

variable {fs : List Field} {v : Value}

theorem straysOf_node (d : Declaration) (gs : List Field) (v : Value) :
    straysOf v ⟨d, gs⟩ =
      if gs.isEmpty then []
      else (v.getKey d.name).toList.flatMap (fun w => (strays gs w).map (StrayEntry.under d)) := rfl

theorem straysBelow_cons (f : Field) (fs : List Field) (v : Value) :
    straysBelow v (f :: fs) = straysOf v f ++ straysBelow v fs := rfl

theorem mem_ownStrays {e : StrayEntry} :
    e ∈ ownStrays fs v ↔ e.above = [] ∧ e.StandsIn fs v := by
  obtain ⟨above, i, s⟩ := e
  constructor
  · intro h
    obtain ⟨⟨⟨k, w⟩, j⟩, hmem, he⟩ := List.mem_filterMap.mp h
    obtain ⟨t, ht, he⟩ := Option.map_eq_some_iff.mp he
    cases he
    obtain ⟨hk, hs⟩ := Option.filter_eq_some_iff.mp ht
    have hentry := List.mem_zipIdx_iff_getElem?.mp hmem
    refine ⟨rfl, StrayEntry.standsIn_root.mpr ?_⟩
    cases hes : v.asMapping with
    | none => simp [hes] at hentry
    | some es =>
      rw [hes] at hentry
      exact ⟨es, k, w, rfl, hentry, hk, by simpa using hs⟩
  · intro h
    obtain ⟨rfl, h⟩ := h
    obtain ⟨es, k, w, hes, hentry, hk, hs⟩ := StrayEntry.standsIn_root.mp h
    refine List.mem_filterMap.mpr ⟨((k, w), i), List.mem_zipIdx_iff_getElem?.mpr ?_, ?_⟩
    · simpa [hes] using hentry
    · have hfilter : k.keyText.filter (fun s => !(fs.map Field.name).contains s) = some s :=
        Option.filter_eq_some_iff.mpr ⟨hk, by simpa using hs⟩
      rw [hfilter, Option.map_some]

theorem mem_straysBelow {e : StrayEntry} :
    e ∈ straysBelow v fs ↔ ∃ d gs w, ⟨d, gs⟩ ∈ fs ∧ gs ≠ [] ∧ v.getKey d.name = some w ∧
      ∃ x ∈ strays gs w, x.under d = e := by
  have hof : ∀ d gs, e ∈ straysOf v ⟨d, gs⟩ ↔ ∃ w, gs ≠ [] ∧ v.getKey d.name = some w ∧
      ∃ x ∈ strays gs w, x.under d = e := by
    intro d gs
    rw [straysOf_node]
    cases gs with
    | nil => simp
    | cons g gs => simp
  induction fs with
  | nil => simp [straysBelow]
  | cons f fs ih =>
    obtain ⟨d, gs⟩ := f
    rw [straysBelow_cons, List.mem_append, hof]
    constructor
    · intro h
      rcases h with ⟨w, hne, hw, hx⟩ | h
      · exact ⟨d, gs, w, .head _, hne, hw, hx⟩
      · obtain ⟨c, hs, w, hmem, hne, hw, hx⟩ := ih.mp h
        exact ⟨c, hs, w, .tail _ hmem, hne, hw, hx⟩
    · intro h
      obtain ⟨c, hs, w, hmem, hne, hw, hx⟩ := h
      rcases List.mem_cons.mp hmem with heq | hmem
      · cases heq
        exact .inl ⟨w, hne, hw, hx⟩
      · exact .inr (ih.mpr ⟨c, hs, w, hmem, hne, hw, hx⟩)

theorem mem_strays {e : StrayEntry} : e ∈ strays fs v ↔ e.StandsIn fs v := by
  induction fs using Field.level_induction generalizing v e with
  | level fs ih =>
    rw [strays, List.mem_append, mem_straysBelow, mem_ownStrays]
    obtain ⟨above, i, s⟩ := e
    cases above with
    | nil =>
      constructor
      · intro h
        rcases h with ⟨d, gs, w, _, _, _, x, _, hx⟩ | ⟨_, h⟩
        · cases hx
        · exact h
      · exact fun h => .inr ⟨rfl, h⟩
    | cons d ds =>
      have hunder : StrayEntry.mk (d :: ds) i s = StrayEntry.under d ⟨ds, i, s⟩ := rfl
      rw [hunder, StrayEntry.standsIn_under]
      constructor
      · intro h
        rcases h with ⟨c, gs, w, hmem, hne, hw, x, hx, heq⟩ | ⟨hnil, _⟩
        · cases heq
          exact ⟨gs, w, hmem, hne, hw, (ih _ gs hmem).mp hx⟩
        · cases hnil
      · intro h
        obtain ⟨gs, w, hmem, hne, hw, he⟩ := h
        exact .inl ⟨d, gs, w, hmem, hne, hw, _, (ih d gs hmem).mpr he, rfl⟩

theorem pairwise_ownStrays : (ownStrays fs v).Pairwise (StrayEntry.Precedes fs) := by
  have hpositions : (v.asMapping.getD []).zipIdx.Pairwise (fun x y => x.2 < y.2) := by
    rw [← List.pairwise_map, List.zipIdx_map_snd]
    exact List.pairwise_lt_range'
  refine hpositions.filterMap _ ?_
  intro x y hxy a ha b hb
  obtain ⟨s, _, rfl⟩ := Option.map_eq_some_iff.mp ha
  obtain ⟨t, _, rfl⟩ := Option.map_eq_some_iff.mp hb
  exact .keys hxy

theorem pairwise_strays_of_below (h : (straysBelow v fs).Pairwise (StrayEntry.Precedes fs)) :
    (strays fs v).Pairwise (StrayEntry.Precedes fs) := by
  refine List.pairwise_append.mpr ⟨h, pairwise_ownStrays, ?_⟩
  intro x hx y hy
  obtain ⟨d, gs, w, _, _, _, z, _, rfl⟩ := mem_straysBelow.mp hx
  obtain ⟨above, j, t⟩ := y
  obtain ⟨rfl, _⟩ := mem_ownStrays.mp hy
  exact .deeper

theorem pairwise_straysBelow : (straysBelow v fs).Pairwise (StrayEntry.Precedes fs) := by
  induction fs using Field.forest generalizing v with
  | nil => exact .nil
  | cons d gs fs ihg ihf =>
    rw [straysBelow_cons]
    refine List.pairwise_append.mpr ⟨?_, ?_, ?_⟩
    · rw [straysOf_node]
      split
      · exact .nil
      · cases v.getKey d.name with
        | none => exact .nil
        | some w =>
          rw [Option.toList_some, List.flatMap_singleton, List.pairwise_map]
          exact (pairwise_strays_of_below ihg).imp (fun hxy => .inside (.head _) hxy)
    · exact ihf.imp (fun hxy => hxy.mono (List.sublist_cons_self _ _))
    · intro x hx y hy
      obtain ⟨c, hs, _, hmem, _, _, z, _, rfl⟩ := mem_straysBelow.mp hy
      have hx' : x ∈ straysBelow v [⟨d, gs⟩] := by simpa [straysBelow] using hx
      obtain ⟨c', hs', _, hmem', _, _, z', _, rfl⟩ := mem_straysBelow.mp hx'
      cases List.mem_singleton.mp hmem'
      exact .siblings (List.Sublist.cons_cons _ (List.singleton_sublist.mpr hmem))

theorem pairwise_strays : (strays fs v).Pairwise (StrayEntry.Precedes fs) :=
  pairwise_strays_of_below pairwise_straysBelow

theorem locations_nodup (h : Distinct fs) : ((strays fs v).map StrayEntry.location).Nodup := by
  rw [List.Nodup, List.pairwise_map]
  exact pairwise_strays.imp (fun hxy => hxy.location_ne h)

theorem path_ownStrays (fs : List Field) (v : Value) :
    (ownStrays fs v).map StrayEntry.path = undeclared fs (some v) := by
  have hpath : (ownStrays fs v).map StrayEntry.path = (ownStrays fs v).map StrayEntry.text := by
    refine List.map_congr_left (fun e he => ?_)
    obtain ⟨above, i, s⟩ := e
    obtain ⟨rfl, _⟩ := mem_ownStrays.mp he
    exact StrayEntry.path_root i s
  have htexts : ∀ es : List (Value × Value),
      es.zipIdx.filterMap (fun x => x.1.1.keyText.filter (fun s => !(fs.map Field.name).contains s)) =
        (Value.keyTexts es).filter (fun s => !(fs.map Field.name).contains s) := by
    intro es
    have hfst := List.filterMap_map (l := es.zipIdx) (f := Prod.fst)
      (g := fun e => e.1.keyText.filter (fun s => !(fs.map Field.name).contains s))
    rw [List.zipIdx_map_fst] at hfst
    rw [Value.keyTexts, List.filter_filterMap, hfst]
    rfl
  rw [hpath, ownStrays, List.map_filterMap]
  simp only [Option.map_map, Function.comp_def, Option.map_id']
  rw [htexts]
  cases hes : v.asMapping <;> simp [undeclared, Value.childKeys, hes, Value.keyTexts]

end Schema

namespace Reconciliation

theorem walk_missing_none (above : String) (deprecated : Bool) (fs : List Field) :
    (walk above none deprecated fs).missing = [] := by
  have hbelow : (walkFields above none deprecated fs).missing = [] :=
    walkFields_missing_eq_nil.mpr (fun p _ _ => by simp [undeclared])
  simp [walk, hbelow, undeclared]

theorem walk_missing_of_below {above : String} {deprecated : Bool} {fs : List Field} {v : Value}
    (h : (walkFields above (some v) deprecated fs).missing =
      (straysBelow v fs).map (fun e => above ++ e.path)) :
    (walk above (some v) deprecated fs).missing = (strays fs v).map (fun e => above ++ e.path) := by
  have hown : (ownStrays fs v).map (fun e => above ++ e.path) =
      (undeclared fs (some v)).map (above ++ ·) := by
    rw [← path_ownStrays, List.map_map]
    rfl
  rw [walk, missing_append, h, strays, List.map_append, hown]

theorem walkFields_missing {fs : List Field} (above : String) (v : Value) (deprecated : Bool) :
    (walkFields above (some v) deprecated fs).missing =
      (straysBelow v fs).map (fun e => above ++ e.path) := by
  induction fs using Field.forest generalizing above v deprecated with
  | nil => rfl
  | cons d gs fs ihg ihf =>
    rw [walkFields_cons_missing, straysBelow_cons, List.map_append, ihf, straysOf_node]
    congr 1
    split
    · rfl
    · rw [Option.bind_some]
      cases v.getKey d.name with
      | none => rw [walk_missing_none]; rfl
      | some w =>
        rw [walk_missing_of_below (ihg _ w _), Option.toList_some, List.flatMap_singleton,
          List.map_map]
        refine List.map_congr_left (fun e _ => ?_)
        simp only [Function.comp_apply, StrayEntry.path_under, String.append_assoc]

end Reconciliation

namespace Schema

theorem reconcile_missing (fs : List Field) (v : Value) :
    (reconcile fs v).missing = (strays fs v).map StrayEntry.path := by
  rw [reconcile, walk_missing_of_below (walkFields_missing "" v false)]
  simp

/-- Reconciliation reports the undeclared entries of an example, all of them and each once, in order. It
is checked without failure exactly if there is none, and a failure names them all. -/
theorem reconcile_reports_strays {fs : List Field} (h : Distinct fs) (v : Value) :
    (∀ e, e ∈ strays fs v ↔ e.StandsIn fs v) ∧
      ((strays fs v).map StrayEntry.location).Nodup ∧
      (strays fs v).Pairwise (StrayEntry.Precedes fs) ∧
      (reconcile fs v).missing = (strays fs v).map StrayEntry.path ∧
      ((∃ paths, check fs v = .error (.undeclared paths)) ↔ ∃ e, StrayEntry.StandsIn fs v e) ∧
      (∀ error, check fs v = .error error →
        error = .undeclared ((strays fs v).map StrayEntry.path)) := by
  have hcheck : check fs v =
      if strays fs v = [] then .ok (reconcile fs v).fields
      else .error (.undeclared ((strays fs v).map StrayEntry.path)) := by
    rw [check, checked, isConsistent, reconcile_missing]
    simp
  refine ⟨fun _ => mem_strays, locations_nodup h, pairwise_strays, reconcile_missing fs v, ?_, ?_⟩
  · rw [hcheck]
    by_cases hnil : strays fs v = []
    · simp [hnil, ← mem_strays]
    · obtain ⟨e, he⟩ := List.exists_mem_of_ne_nil _ hnil
      simp only [hnil, if_false]
      exact ⟨fun _ => ⟨e, mem_strays.mp he⟩, fun _ => ⟨_, rfl⟩⟩
  · intro error herror
    rw [hcheck] at herror
    split at herror
    · cases herror
    · exact (Except.error.inj herror).symm

def relayFields : List Field :=
  [⟨{ name := "source" }, [.common "host" "", ⟨{ name := "7" }, [.common "mode" ""]⟩]⟩,
    .common "headers" ""]

def relaySample : Value :=
  .map [(.str "extra", .null), (.null, .null), (.str "headers", .map [(.str "any", .null)]),
    (.str "source", .tagged "tcp" (.map [(.int 8, .null), (.str "8", .null),
      (.int 7, .map [(.bool true, .null)])]))]

theorem reconcile_reports_strays_relay :
    check relayFields relaySample =
        .error (.undeclared ["source.7.true", "source.8", "source.8", "extra"]) ∧
      ∃ e, StrayEntry.StandsIn relayFields relaySample e ∧ e.path = "source.8" := by
  have hl : (lintFields "" relayFields).errors = [] := by decide +kernel
  have hd : Distinct relayFields := (lintFields_errors_eq_nil.mp hl).distinct
  obtain ⟨hmem, _, _, hmissing, hfails, hnames⟩ := reconcile_reports_strays hd relaySample
  have hpaths : (reconcile relayFields relaySample).missing =
      ["source.7.true", "source.8", "source.8", "extra"] := by decide +kernel
  rw [hmissing] at hpaths
  obtain ⟨e, he, hpath⟩ : ∃ e ∈ strays relayFields relaySample, e.path = "source.8" :=
    List.mem_map.mp (by rw [hpaths]; simp)
  obtain ⟨paths, hcheck⟩ := hfails.mpr ⟨e, (hmem e).mp he⟩
  refine ⟨?_, e, (hmem e).mp he, hpath⟩
  rw [hcheck, hnames _ hcheck, hpaths]

end Schema

end ComponentDoc
