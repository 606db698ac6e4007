import Mathlib.Data.Fintype.EquivFin
import ComponentDoc.Proofs.Redaction
import ComponentDoc.Proofs.StrayEntries

/-!
What deprecated declarations mean to reconciliation. The walk goes into a deprecated field as into any
other and reports what is undeclared there. What it reports elsewhere does not depend on the values of
deprecated fields, so these count for nothing exactly if no deprecated declaration has children.
-/

set_option autoImplicit false

namespace ComponentDoc

open Schema Reconciliation

namespace StrayEntry

/-- The entry stands beneath a deprecated declaration. -/
def isHidden (e : StrayEntry) : Bool := e.above.any (·.deprecated)

@[simp] theorem isHidden_under (d : Declaration) (e : StrayEntry) :
    (e.under d).isHidden = (d.deprecated || e.isHidden) := rfl

end StrayEntry

/-- No deprecated declaration has children. -/
def Schema.NoDeprecatedParents (fs : List Field) : Prop :=
  ∀ p ∈ places fs, p.declaration.deprecated = true → p.hasChildren = false

namespace Schema

variable {fs : List Field} {v : Value}

theorem names_redact (fs : List Field) : (redact fs).map Field.name = fs.map Field.name := by
  rw [redact_eq_map, List.map_map]
  refine List.map_congr_left (fun f _ => ?_)
  obtain ⟨d, gs⟩ := f
  rw [Function.comp_apply, Field.redact]
  split <;> rfl

theorem straysBelow_eq_flatMap (v : Value) (fs : List Field) :
    straysBelow v fs = fs.flatMap (straysOf v) := by
  induction fs with
  | nil => rfl
  | cons f fs ih => rw [straysBelow_cons, ih, List.flatMap_cons]

theorem ownStrays_redact (fs : List Field) (v : Value) :
    ownStrays (redact fs) v = ownStrays fs v := by
  rw [ownStrays, names_redact, ownStrays]

theorem filter_ownStrays (fs : List Field) (v : Value) :
    (ownStrays fs v).filter (fun e => !e.isHidden) = ownStrays fs v := by
  rw [List.filter_eq_self]
  intro e he
  obtain ⟨above, i, s⟩ := e
  obtain ⟨rfl, _⟩ := mem_ownStrays.mp he
  rfl

theorem straysBelow_redact (v : Value) (fs : List Field) :
    straysBelow v (redact fs) = (straysBelow v fs).filter (fun e => !e.isHidden) := by
  induction fs using Field.forest generalizing v with
  | nil => rfl
  | cons d gs fs ihg ihf =>
    rw [redact, straysBelow_cons, straysBelow_cons, List.filter_append, ihf, Field.redact,
      straysOf_node]
    congr 1
    have hfilter : ∀ w, ((strays gs w).map (StrayEntry.under d)).filter (fun e => !e.isHidden) =
        if d.deprecated then [] else (strays (redact gs) w).map (StrayEntry.under d) := by
      intro w
      rw [List.filter_map]
      cases hd : d.deprecated with
      | true => simp [Function.comp_def, hd]
      | false =>
        rw [strays, strays, ihg, ownStrays_redact, ← filter_ownStrays gs w, ← List.filter_append]
        simp [Function.comp_def, hd]
    cases hd : d.deprecated with
    | true =>
      have hleaf : straysOf v (.deprecated d.name) = [] := rfl
      rw [if_pos rfl, hleaf]
      split
      · rfl
      · cases v.getKey d.name with
        | none => rfl
        | some w => rw [Option.toList_some, List.flatMap_singleton, hfilter, hd, if_pos rfl]
    | false =>
      rw [if_neg (by simp), straysOf_node, isEmpty_redact]
      split
      · rfl
      · cases v.getKey d.name with
        | none => rfl
        | some w =>
          rw [Option.toList_some, List.flatMap_singleton, List.flatMap_singleton, hfilter, hd,
            if_neg (by simp)]

theorem strays_redact (fs : List Field) (v : Value) :
    strays (redact fs) v = (strays fs v).filter (fun e => !e.isHidden) := by
  rw [strays, strays, List.filter_append, straysBelow_redact, ownStrays_redact, filter_ownStrays]

theorem mem_names_of_find {name : String} {f : Field} (h : Field.find name fs = some f) :
    name ∈ fs.map Field.name := by
  have hname : f.name = name := by simpa using List.find?_some h
  exact List.mem_map.mpr ⟨f, List.mem_of_find?_eq_some h, hname⟩

theorem ownStrays_path_redact (fs : List Field) (v : Value) :
    (ownStrays fs (v.redact fs)).map StrayEntry.path = (ownStrays fs v).map StrayEntry.path := by
  have hkeys : ∀ es, (Value.keyTexts (Value.redactEntries fs es)).filter
      (fun s => !(fs.map Field.name).contains s) =
        (Value.keyTexts es).filter (fun s => !(fs.map Field.name).contains s) := by
    intro es
    induction es with
    | nil => rfl
    | cons e es ih =>
      obtain ⟨k, w⟩ := e
      have hcons : ∀ u es, Value.keyTexts ((k, u) :: es) = k.keyText.toList ++ Value.keyTexts es := by
        intro u es
        cases hk : k.keyText <;> simp [Value.keyTexts, hk]
      rw [Value.redactEntries, hcons, List.filter_append, ← ih]
      split
      · next d gs hfind =>
        split
        · obtain ⟨s, hs, hname⟩ := Option.bind_eq_some_iff.mp hfind
          have hnone : [s].filter (fun s => !(fs.map Field.name).contains s) = [] := by
            simpa using mem_names_of_find hname
          rw [hs, Option.toList_some, hnone, List.nil_append]
        · rw [hcons, List.filter_append]
      · rw [hcons, List.filter_append]
  rw [path_ownStrays, path_ownStrays]
  simp only [undeclared, Option.map_some, Option.getD_some, Value.childKeys, Value.asMapping_redact]
  cases v.asMapping with
  | none => rfl
  | some es => exact hkeys es

theorem strays_path_redact (h : Distinct fs) (v : Value) :
    (strays (redact fs) (v.redact fs)).map StrayEntry.path =
      (strays (redact fs) v).map StrayEntry.path := by
  induction fs using Field.level_induction generalizing v with
  | level fs ih =>
    have hfield : ∀ f ∈ fs, (straysOf (v.redact fs) f.redact).map StrayEntry.path =
        (straysOf v f.redact).map StrayEntry.path := by
      intro f hmem
      obtain ⟨d, gs⟩ := f
      rw [Field.redact]
      cases hd : d.deprecated with
      | true => rfl
      | false =>
        rw [if_neg (by simp), straysOf_node, straysOf_node, Value.getKey_redact h.1 hmem hd]
        split
        · rfl
        · cases v.getKey d.name with
          | none => rfl
          | some w =>
            have hbelow := congrArg (List.map (fun s => d.name ++ "." ++ s))
              (ih d gs hmem (h.children hmem) w)
            simpa [StrayEntry.path_under, Function.comp_def] using hbelow
    rw [strays, strays, List.map_append, List.map_append, ownStrays_redact, ownStrays_redact,
      ownStrays_path_redact, straysBelow_eq_flatMap, straysBelow_eq_flatMap, redact_eq_map,
      List.flatMap_map, List.flatMap_map, List.map_flatMap, List.map_flatMap,
      List.flatMap_congr hfield]

theorem Reaches.exists_place {gs : List Field} {ds : List Declaration} (h : Reaches fs ds gs) :
    ∀ d ∈ ds, ∃ p ∈ places fs, p.declaration = d ∧ p.hasChildren = true := by
  induction h with
  | here fs => simp
  | @beneath fs gs hs d ds hmem hne _ ih =>
    rw [List.forall_mem_cons]
    constructor
    · exact ⟨_, top_mem_places hmem, rfl, by simpa [Place.hasChildren] using hne⟩
    · intro c hc
      obtain ⟨p, hp, hdecl, hchildren⟩ := ih c hc
      exact ⟨_, under_mem_places hmem hp, hdecl, hchildren⟩

theorem reaches_chain {p : Place} (hp : p ∈ places fs) (hc : p.hasChildren = true) :
    Reaches fs p.chain p.children := by
  induction hp using places_induction with
  | top fs d gs hmem => exact .beneath hmem (by simpa [Place.hasChildren] using hc) (.here gs)
  | under fs d gs q hmem hq ih => exact .beneath hmem (children_ne_nil_of_mem hq) (ih hc)

theorem strays_eq_nil : strays fs v = [] ↔ (∀ k ∈ v.childKeys, k ∈ fs.map Field.name) ∧
    ∀ d gs, ⟨d, gs⟩ ∈ fs → gs ≠ [] → ∀ w, v.getKey d.name = some w → strays gs w = [] := by
  have hown : ownStrays fs v = [] ↔ ∀ k ∈ v.childKeys, k ∈ fs.map Field.name := by
    rw [← List.map_eq_nil_iff (f := StrayEntry.path), path_ownStrays, undeclared_eq_nil]
    simp
  rw [strays, List.append_eq_nil_iff, and_comm, hown, List.eq_nil_iff_forall_not_mem]
  refine and_congr_right' ⟨?_, ?_⟩
  · intro hnone d gs hmem hne w hw
    rw [List.eq_nil_iff_forall_not_mem]
    intro x hx
    exact hnone _ (mem_straysBelow.mpr ⟨d, gs, w, hmem, hne, hw, x, hx, rfl⟩)
  · intro hnil e he
    obtain ⟨d, gs, w, hmem, hne, hw, x, hx, _⟩ := mem_straysBelow.mp he
    rw [hnil d gs hmem hne w hw] at hx
    cases hx

theorem strays_empty (fs : List Field) : strays fs (.map []) = [] :=
  strays_eq_nil.mpr ⟨fun _ hk => absurd hk List.not_mem_nil, fun _ _ _ _ _ hw => nomatch hw⟩

end Schema

namespace Value

theorem getKey_wrap (key name : String) (v : Value) :
    (wrap key v).getKey name = if key = name then some v else none := by
  have hwrap : wrap key v = .map (textKeyed [(key, v)]) := rfl
  rw [hwrap, getKey_textKeyed, List.lookup_cons, List.lookup_nil]
  by_cases h : key = name
  · simp [h]
  · rw [if_neg h, beq_eq_false_iff_ne.mpr (Ne.symm h)]

theorem childKeys_wrap (key : String) (v : Value) : (wrap key v).childKeys = [key] :=
  childKeys_textKeyed [(key, v)]

end Value

def Place.holding (p : Place) (w : Value) : Value := p.names.foldr Value.wrap w

namespace Place

variable {fs : List Field} {p : Place}

theorem found_holding (p : Place) (w : Value) : p.found (p.holding w) = some w := by
  rw [found, holding]
  induction p.names with
  | nil => rfl
  | cons n ns ih => rw [List.foldr_cons, List.foldlM_cons, Value.getKey_wrap, if_pos rfl]; exact ih

theorem strays_holding (h : Distinct fs) (hp : p ∈ places fs) :
    strays fs (p.holding (.map [])) = [] := by
  have hwrap : ∀ {fs : List Field} {d : Declaration} {gs : List Field} (w : Value), Distinct fs →
      ⟨d, gs⟩ ∈ fs → strays gs w = [] → strays fs (.wrap d.name w) = [] := by
    intro fs d gs w h hmem hw
    refine strays_eq_nil.mpr ⟨?_, ?_⟩
    · rw [Value.childKeys_wrap, List.forall_mem_singleton]
      exact List.mem_map_of_mem hmem
    · intro c hs hc _ u hu
      rw [Value.getKey_wrap] at hu
      split at hu
      · next hname =>
        cases hu
        cases List.inj_on_of_nodup_map h.1 hmem hc hname
        exact hw
      · cases hu
  induction hp using places_induction with
  | top fs d gs hmem => exact hwrap _ h hmem (strays_empty gs)
  | under fs d gs q hmem _ ih => exact hwrap _ h hmem (ih (h.children hmem))

theorem redact_holding (h : Distinct fs) (hp : p ∈ places fs)
    (hd : p.declaration.deprecated = true) (v w : Value) :
    (p.holding v).redact fs = (p.holding w).redact fs := by
  have hwrap : ∀ {fs : List Field} {d : Declaration} {gs : List Field} (v : Value), Distinct fs →
      ⟨d, gs⟩ ∈ fs → (Value.wrap d.name v).redact fs =
        if d.deprecated then .map [] else .wrap d.name (v.redact gs) := by
    intro fs d gs v h hmem
    have hfind : (Value.keyText (.str d.name)).bind (Field.find · fs) = some ⟨d, gs⟩ :=
      Field.find_eq_some h.1 hmem
    cases hdep : d.deprecated <;> simp [Value.wrap, Value.redact, Value.redactEntries, hfind, hdep]
  induction hp using places_induction with
  | top fs d gs hmem =>
    have hdep : d.deprecated = true := hd
    have hholding : ∀ u, (top d gs).holding u = .wrap d.name u := fun _ => rfl
    rw [hholding, hholding, hwrap v h hmem, hwrap w h hmem, hdep, if_pos rfl, if_pos rfl]
  | under fs d gs q hmem _ ih =>
    have hholding : ∀ u, (q.under d).holding u = .wrap d.name (q.holding u) := fun _ => rfl
    rw [hholding, hholding, hwrap _ h hmem, hwrap _ h hmem, ih (h.children hmem) hd]

end Place

namespace Schema

variable {fs : List Field}

/-- Some example has an undeclared entry beneath a deprecated declaration with children. -/
theorem exists_hidden {p : Place} (hp : p ∈ places fs) (hd : p.declaration.deprecated = true)
    (hc : p.hasChildren = true) :
    ∃ w, ∃ e ∈ strays fs (p.holding w), e.isHidden = true := by
  obtain ⟨s, hs⟩ := Infinite.exists_notMem_finset (p.children.map Field.name).toFinset
  rw [List.mem_toFinset] at hs
  refine ⟨.map [(.str s, .null)], ⟨p.chain, 0, s⟩, mem_strays.mpr ?_, ?_⟩
  · exact ⟨p.children, _, _, _, _, reaches_chain hp hc, p.found_holding _, rfl, rfl, rfl, hs⟩
  · exact List.any_eq_true.mpr ⟨p.declaration, by simp [Place.chain], hd⟩

theorem not_isHidden (h : NoDeprecatedParents fs) {v : Value} {e : StrayEntry}
    (he : e ∈ strays fs v) : e.isHidden = false := by
  obtain ⟨gs, _, _, _, _, hreach, _⟩ := mem_strays.mp he
  rw [StrayEntry.isHidden, List.any_eq_false]
  intro d hd
  obtain ⟨p, hp, rfl, hchildren⟩ := hreach.exists_place d hd
  intro hdeprecated
  rw [h p hp hdeprecated] at hchildren
  cases hchildren

/-- What is missing outside deprecated fields does not depend on what these hold. -/
theorem missing_redact_congr (h : Distinct fs) {v w : Value} (hvw : v.redact fs = w.redact fs) :
    (reconcile (redact fs) v).missing = (reconcile (redact fs) w).missing := by
  rw [reconcile_missing, reconcile_missing, ← strays_path_redact h v, ← strays_path_redact h w, hvw]

theorem check_eq_error {v : Value} {error : SchemaError} :
    check fs v = .error error ↔
      (reconcile fs v).missing ≠ [] ∧ error = .undeclared (reconcile fs v).missing := by
  unfold check checked isConsistent
  cases (reconcile fs v).missing <;> simp [eq_comm]

/-- Reconciliation tells what is undeclared outside deprecated fields by the example without their
values. Beneath them it reports entries as well, so both the report and the failure are free of
deprecated fields exactly if no deprecated declaration has children. -/
theorem deprecated_excluded_iff (fs : List Field) :
    (∀ v, (reconcile fs v).missing = (strays fs v).map StrayEntry.path ∧
      (reconcile (redact fs) v).missing =
        ((strays fs v).filter (fun e => !e.isHidden)).map StrayEntry.path) ∧
    ((∀ v, ∀ e ∈ strays fs v, e.isHidden = false) ↔ NoDeprecatedParents fs) ∧
    (Distinct fs →
      (∀ v w, v.redact fs = w.redact fs →
        (reconcile (redact fs) v).missing = (reconcile (redact fs) w).missing) ∧
      ((∀ v w, v.redact fs = w.redact fs → ∀ error,
          check fs v = .error error ↔ check fs w = .error error) ↔ NoDeprecatedParents fs)) := by
  refine ⟨?_, ⟨?_, ?_⟩, fun h => ⟨fun v w => missing_redact_congr h, ?_, ?_⟩⟩
  · intro v
    rw [reconcile_missing, reconcile_missing, strays_redact]
    exact ⟨rfl, rfl⟩
  · intro hnone p hp hd
    by_contra hc
    obtain ⟨w, e, he, hhidden⟩ := exists_hidden hp hd (by simpa using hc)
    rw [hnone _ e he] at hhidden
    cases hhidden
  · exact fun hno v e he => not_isHidden hno he
  · intro hsame p hp hd
    by_contra hc
    obtain ⟨w, e, he, _⟩ := exists_hidden hp hd (by simpa using hc)
    have hfails : (reconcile fs (p.holding w)).missing ≠ [] := by
      rw [reconcile_missing]
      exact List.ne_nil_of_mem (List.mem_map_of_mem he)
    have hpasses : (reconcile fs (p.holding (.map []))).missing = [] := by
      rw [reconcile_missing, Place.strays_holding h hp, List.map_nil]
    have hboth := hsame _ _ (Place.redact_holding h hp hd w (.map []))
    exact (check_eq_error.mp ((hboth _).mp (check_eq_error.mpr ⟨hfails, rfl⟩))).1 hpasses
  · intro hno v w hvw error
    have hmissing : ∀ u, (reconcile fs u).missing = (reconcile (redact fs) u).missing := by
      intro u
      rw [reconcile_missing, reconcile_missing, strays_redact, List.filter_eq_self.mpr]
      exact fun e he => by rw [not_isHidden hno he]; rfl
    rw [check_eq_error, check_eq_error, hmissing, hmissing, missing_redact_congr h hvw]

def sealedFields : List Field :=
  [⟨{ name := "source" }, [.common "path" "", .deprecated "legacy"]⟩]

def sealedSample (legacy : Value) : Value :=
  .map [(.str "source", .map [(.str "path", .str "in"), (.str "legacy", legacy), (.int 7, .null)])]

theorem deprecated_excluded_iff_sealed :
    check sealedFields (sealedSample (.bool true)) = .error (.undeclared ["source.7"]) ∧
      check sealedFields (sealedSample (.map [(.str "port", .int 80)])) =
        .error (.undeclared ["source.7"]) := by
  have hl : (lintFields "" sealedFields).errors = [] := by decide +kernel
  have hno : NoDeprecatedParents sealedFields := by
    simp [NoDeprecatedParents, sealedFields, Field.deprecated, Field.common, places_cons,
      Place.hasChildren, Place.under, Place.top]
  have hredact : ∀ legacy, (sealedSample legacy).redact sealedFields =
      .map [(.str "source", .map [(.str "path", .str "in"), (.int 7, .null)])] := by
    intro legacy
    rfl
  obtain ⟨_, _, hdistinct⟩ := deprecated_excluded_iff sealedFields
  obtain ⟨_, hsame⟩ := hdistinct (lintFields_errors_eq_nil.mp hl).distinct
  have hfirst : check sealedFields (sealedSample (.bool true)) =
      .error (.undeclared ["source.7"]) := by rfl
  refine ⟨hfirst, ?_⟩
  exact (hsame.mpr hno _ _ ((hredact _).trans (hredact _).symm) _).mp hfirst

def legacyFields : List Field := [⟨{ name := "legacy", deprecated := true }, [.common "host" ""]⟩]

/-- Two examples that differ beneath a deprecated field alone: one passes, the other does not. -/
theorem check_reports_deprecated :
    (lintFields "" legacyFields).errors = [] ∧
      ∃ v w : Value, v.redact legacyFields = w.redact legacyFields ∧
        (check legacyFields v).isOk = true ∧
        check legacyFields w = .error (.undeclared ["legacy.port"]) ∧
        ∃ e ∈ strays legacyFields w, e.isHidden = true := by
  refine ⟨by decide +kernel, .map [(.str "legacy", .map [(.str "host", .str "a")])],
    .map [(.str "legacy", .map [(.str "port", .int 80)])], ?_, ?_, ?_, ?_⟩
  · simp [Value.redact, Value.redactEntries, Value.keyText, Field.find, legacyFields]
  · decide +kernel
  · rfl
  · exact ⟨⟨[{ name := "legacy", deprecated := true }], 0, "port"⟩, .head _, rfl⟩

end Schema

end ComponentDoc
