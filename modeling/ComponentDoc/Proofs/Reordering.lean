import Mathlib.Data.List.Find
import Mathlib.Data.List.Nodup
import ComponentDoc.Proofs.Extraction
import ComponentDoc.Proofs.Flattening
import ComponentDoc.Proofs.KeyRewriting

/-!
The order of an example's keys. Two examples that differ only in the order of entries, at levels that
the schema reaches, have values of one kind with the same keys at every place, and the same value
where no fields are declared beneath. Tiers and flattened fields follow the order of declarations, so
only the order of the missing paths can tell such examples apart.
-/

set_option autoImplicit false

namespace ComponentDoc

open Schema Tiers Reconciliation

/-- The same value with entries in another order, in the mapping at the root and in the mappings beneath
fields with children. Whatever stands under any other key is left as it is. -/
inductive Schema.Reordered : List Field → Value → Value → Prop
  | refl {fs : List Field} (v : Value) : Reordered fs v v
  | trans {fs : List Field} {u v w : Value} :
      Reordered fs u v → Reordered fs v w → Reordered fs u w
  | tagged {fs : List Field} {v w : Value} (tag : String) :
      Reordered fs v w → Reordered fs (.tagged tag v) (.tagged tag w)
  | entries {fs : List Field} {es es' : List (Value × Value)} :
      es.Perm es' → Reordered fs (.map es) (.map es')
  /-- The mapping under the first key; any entry can be brought there and back. -/
  | inside {fs gs : List Field} {d : Declaration} {k v w : Value} {es : List (Value × Value)} :
      ⟨d, gs⟩ ∈ fs → gs ≠ [] → k.keyText = some d.name → Reordered gs v w →
      Reordered fs (.map ((k, v) :: es)) (.map ((k, w) :: es))

/-- Different keys have different texts, at every level that the schema reaches. -/
structure Schema.KeysDiffer (fs : List Field) (v : Value) : Prop where
  root : v.childKeys.Nodup
  below : ∀ p ∈ places fs, p.hasChildren = true → ∀ w, p.found v = some w → w.childKeys.Nodup

namespace Value

section

variable {name : String} {k v : Value} {es es' : List (Value × Value)}

theorem mem_keyTexts_iff : name ∈ keyTexts es ↔ ∃ k v, (k, v) ∈ es ∧ k.keyText = some name := by
  simp [keyTexts]

theorem keyTexts_cons : keyTexts ((k, v) :: es) = k.keyText.toList ++ keyTexts es := by
  cases hk : k.keyText <;> simp [keyTexts, hk]

theorem nodup_keyTexts_tail (h : (keyTexts ((k, v) :: es)).Nodup) : (keyTexts es).Nodup := by
  rw [keyTexts_cons] at h
  exact (List.nodup_append.mp h).2.1

theorem findKey_cons (h : (keyTexts ((k, v) :: es)).Nodup) :
    findKey name ((k, v) :: es) = if k.keyText = some name then some v else findKey name es := by
  rw [← findLast_eq_findKey name h, ← findLast_eq_findKey name (nodup_keyTexts_tail h), findLast]
  by_cases hk : k.keyText = some name
  · have hmem : name ∉ keyTexts es := by
      rw [keyTexts_cons, hk] at h
      exact (List.nodup_cons.mp h).1
    have hlast : findLast name es = none := by
      rwa [← Option.not_isSome_iff_eq_none, findLast_isSome, findText_isSome_iff]
    rw [hlast, Option.none_or]
  · rw [if_neg hk, if_neg hk, Option.or_none]

theorem findKey_eq_some_iff (h : (keyTexts es).Nodup) :
    findKey name es = some v ↔ ∃ k, (k, v) ∈ es ∧ k.keyText = some name := by
  induction es with
  | nil => simp [findKey, findExact, findText]
  | cons e es ih =>
    obtain ⟨j, w⟩ := e
    rw [findKey_cons h]
    by_cases hj : j.keyText = some name
    · have hmem : name ∉ keyTexts es := by
        rw [keyTexts_cons, hj] at h
        exact (List.nodup_cons.mp h).1
      rw [if_pos hj]
      constructor
      · intro hw
        cases hw
        exact ⟨j, List.mem_cons_self, hj⟩
      · intro hfound
        obtain ⟨k, hk, hname⟩ := hfound
        rcases List.mem_cons.mp hk with heq | hk
        · cases heq
          rfl
        · exact absurd (mem_keyTexts_iff.mpr ⟨k, v, hk, hname⟩) hmem
    · rw [if_neg hj, ih (nodup_keyTexts_tail h)]
      constructor
      · intro hfound
        obtain ⟨k, hk, hname⟩ := hfound
        exact ⟨k, List.mem_cons_of_mem _ hk, hname⟩
      · intro hfound
        obtain ⟨k, hk, hname⟩ := hfound
        rcases List.mem_cons.mp hk with heq | hk
        · cases heq
          exact absurd hname hj
        · exact ⟨k, hk, hname⟩

theorem getKey_perm (h : es.Perm es') (hn : (keyTexts es).Nodup) (name : String) :
    getKey (.map es) name = getKey (.map es') name := by
  have hn' : (keyTexts es').Nodup := (h.filterMap _).nodup_iff.mp hn
  apply Option.ext
  intro v
  simp only [getKey, asMapping, Option.bind_some, findKey_eq_some_iff hn, findKey_eq_some_iff hn',
    h.mem_iff]

end

end Value

/-- Both absent, or of one kind and with the same keys in any order. -/
structure Alike (a b : Option Value) : Prop where
  kind : a.map Value.kind = b.map Value.kind
  keys : ((a.map Value.childKeys).getD []).Perm ((b.map Value.childKeys).getD [])

namespace Alike

variable {a b c : Option Value}

theorem refl (a : Option Value) : Alike a a := ⟨rfl, .refl _⟩

theorem trans (h : Alike a b) (h' : Alike b c) : Alike a c :=
  ⟨h.kind.trans h'.kind, h.keys.trans h'.keys⟩

theorem typeName (h : Alike a b) : a.bind Value.typeName = b.bind Value.typeName := by
  have hbind : ∀ o : Option Value, o.bind Value.typeName = (o.map Value.kind).bind Kind.typeName := by
    intro o
    cases o <;> rfl
  rw [hbind, hbind, h.kind]

theorem any_isNone_asMapping (h : Alike a b) :
    a.any (fun v => v.asMapping.isNone) = b.any (fun v => v.asMapping.isNone) := by
  have hany : ∀ o : Option Value,
      o.any (fun v => v.asMapping.isNone) = (o.map Value.kind).any (fun k => k ≠ .mapping) := by
    intro o
    cases o with
    | none => rfl
    | some v => simp [← Option.not_isSome, Value.isSome_asMapping]
  rw [hany, hany, h.kind]

theorem undeclared (h : Alike a b) (fs : List Field) :
    (Reconciliation.undeclared fs a).Perm (Reconciliation.undeclared fs b) := h.keys.filter _

end Alike

structure Place.Agree (p : Place) (n m : Option Value) : Prop where
  alike : Alike (n.bind (fun v => p.found v)) (m.bind (fun v => p.found v))
  leaf : p.hasChildren = false → n.bind (fun v => p.found v) = m.bind (fun v => p.found v)

theorem Place.found_congr {v w : Value} (h : ∀ name, v.getKey name = w.getKey name) (p : Place) :
    p.found v = p.found w := by
  rw [found, found]
  cases hnames : p.names with
  | nil => exact absurd hnames p.names_ne_nil
  | cons n ns => rw [List.foldlM_cons, List.foldlM_cons, h]

namespace Schema

variable {fs gs : List Field} {d : Declaration} {l m n : Option Value} {v w : Value}

def Agree (fs : List Field) (n m : Option Value) : Prop := ∀ p ∈ places fs, p.Agree n m

theorem Agree.of_found_eq (h : ∀ p ∈ places fs, p.found v = p.found w) :
    Agree fs (some v) (some w) := by
  intro p hp
  constructor
  · rw [Option.bind_some, Option.bind_some, h p hp]
    exact .refl _
  · exact fun _ => h p hp

theorem Agree.trans (h : Agree fs l m) (h' : Agree fs m n) : Agree fs l n := by
  intro p hp
  obtain ⟨halike, hleaf⟩ := h p hp
  obtain ⟨halike', hleaf'⟩ := h' p hp
  exact ⟨halike.trans halike', fun hc => (hleaf hc).trans (hleaf' hc)⟩

theorem Agree.tail (h : Agree (⟨d, gs⟩ :: fs) n m) : Agree fs n m :=
  fun p hp => h p (by simp [places_cons, hp])

theorem Agree.top (h : Agree (⟨d, gs⟩ :: fs) n m) :
    Alike (n.bind (·.getKey d.name)) (m.bind (·.getKey d.name)) := by
  simpa using (h _ (top_mem_places List.mem_cons_self)).alike

theorem Agree.child (h : Agree (⟨d, gs⟩ :: fs) n m) :
    Agree gs (n.bind (·.getKey d.name)) (m.bind (·.getKey d.name)) := by
  intro q hq
  obtain ⟨halike, hleaf⟩ := h _ (under_mem_places List.mem_cons_self hq)
  refine ⟨?_, fun hc => ?_⟩
  · simpa [Option.bind_assoc] using halike
  · simpa [Option.bind_assoc] using hleaf hc

theorem KeysDiffer.of_agree (hk : KeysDiffer fs v) (hroot : Alike (some v) (some w))
    (h : Agree fs (some v) (some w)) : KeysDiffer fs w := by
  constructor
  · exact hroot.keys.nodup_iff.mp hk.root
  · intro p hp hc b hb
    have hkeys := (h p hp).alike.keys
    have hkind := (h p hp).alike.kind
    simp only [Option.bind_some] at hkeys hkind
    rw [hb] at hkeys hkind
    obtain ⟨a, ha, _⟩ := Option.map_eq_some_iff.mp hkind
    rw [ha] at hkeys
    exact hkeys.nodup_iff.mp (hk.below p hp hc a ha)

theorem KeysDiffer.child {a : Value} (hk : KeysDiffer fs v) (hmem : ⟨d, gs⟩ ∈ fs) (hne : gs ≠ [])
    (ha : v.getKey d.name = some a) : KeysDiffer gs a := by
  constructor
  · exact hk.below _ (top_mem_places hmem) (by simpa [Place.hasChildren]) a (by simpa using ha)
  · intro q hq hc b hb
    exact hk.below _ (under_mem_places hmem hq) hc b (by simp [ha, hb])

theorem agree_inside {k a b : Value} {es : List (Value × Value)} (hd : Distinct fs)
    (hk : KeysDiffer fs (.map ((k, a) :: es))) (hmem : ⟨d, gs⟩ ∈ fs) (hne : gs ≠ [])
    (htext : k.keyText = some d.name) (hab : Alike (some a) (some b))
    (h : Agree gs (some a) (some b)) :
    Agree fs (some (.map ((k, a) :: es))) (some (.map ((k, b) :: es))) := by
  have hn : (Value.keyTexts ((k, a) :: es)).Nodup := hk.root
  have hget : ∀ c name, (Value.keyTexts ((k, c) :: es)).Nodup →
      Value.getKey (.map ((k, c) :: es)) name =
        if d.name = name then some c else Value.findKey name es := by
    intro c name hc
    simp only [Value.getKey, Value.asMapping, Option.bind_some, Value.findKey_cons hc, htext,
      Option.some.injEq]
  intro p hp
  obtain ⟨e, hs, he, hcase⟩ := mem_places_iff.mp hp
  by_cases hname : d.name = e.name
  · have hsame : (⟨d, gs⟩ : Field) = ⟨e, hs⟩ := List.inj_on_of_nodup_map hd.1 hmem he hname
    cases hsame
    obtain rfl | ⟨q, hq, rfl⟩ := hcase
    · refine ⟨?_, fun hc => ?_⟩
      · simpa [hget a _ hn, hget b _ hn] using hab
      · exact absurd hc (by simpa [Place.hasChildren] using hne)
    · obtain ⟨halike, hleaf⟩ := h q hq
      refine ⟨?_, fun hc => ?_⟩
      · simpa [hget a _ hn, hget b _ hn] using halike
      · simpa [hget a _ hn, hget b _ hn] using hleaf hc
  · have hfound : p.found (.map ((k, a) :: es)) = p.found (.map ((k, b) :: es)) := by
      obtain rfl | ⟨q, hq, rfl⟩ := hcase
      · simp [hget a _ hn, hget b _ hn, hname]
      · simp [hget a _ hn, hget b _ hn, hname]
    refine ⟨?_, fun _ => hfound⟩
    rw [Option.bind_some, Option.bind_some, hfound]
    exact .refl _

/-- Reordering entries keeps what is at every place, up to the order of keys. -/
theorem Reordered.agree (h : Reordered fs v w) (hd : Distinct fs) (hk : KeysDiffer fs v) :
    Alike (some v) (some w) ∧ Agree fs (some v) (some w) := by
  -- The fields change from one level to the next, so the induction is over the reordering itself.
  induction h with
  | refl v => exact ⟨.refl _, .of_found_eq (fun _ _ => rfl)⟩
  | trans _ _ ih ih' =>
    obtain ⟨hroot, hagree⟩ := ih hd hk
    obtain ⟨hroot', hagree'⟩ := ih' hd (hk.of_agree hroot hagree)
    exact ⟨hroot.trans hroot', hagree.trans hagree'⟩
  | @tagged fs v w tag _ ih =>
    have hfound : ∀ (u : Value) (p : Place), p.found (.tagged tag u) = p.found u :=
      fun u => Place.found_congr (v := .tagged tag u) (w := u) (fun _ => rfl)
    have hkeys : KeysDiffer fs v :=
      ⟨hk.root, fun p hp hc u hu => hk.below p hp hc u ((hfound v p).trans hu)⟩
    obtain ⟨hroot, hagree⟩ := ih hd hkeys
    have hv : Agree fs (some (.tagged tag v)) (some v) := .of_found_eq (fun p _ => hfound v p)
    have hw : Agree fs (some w) (some (.tagged tag w)) :=
      .of_found_eq (fun p _ => (hfound w p).symm)
    exact ⟨⟨hroot.kind, hroot.keys⟩, hv.trans (hagree.trans hw)⟩
  | entries hperm =>
    have hn : (Value.keyTexts _).Nodup := hk.root
    refine ⟨⟨rfl, hperm.filterMap _⟩, .of_found_eq fun p _ => ?_⟩
    exact Place.found_congr (Value.getKey_perm hperm hn) p
  | @inside fs gs d k a b es hmem hne htext _ ih =>
    have hget : Value.getKey (.map ((k, a) :: es)) d.name = some a := by
      simp only [Value.getKey, Value.asMapping, Option.bind_some, Value.findKey_cons hk.root, htext,
        if_pos]
    obtain ⟨hroot, hagree⟩ := ih (hd.children hmem) (hk.child hmem hne hget)
    exact ⟨⟨rfl, .refl _⟩, agree_inside hd hk hmem hne htext hroot hagree⟩

theorem Agree.fields (h : Agree fs (some v) (some w)) :
    (reconcile fs v).fields = (reconcile fs w).fields := by
  rw [reconcile_fields, reconcile_fields]
  refine List.map_congr_left (fun p hp => ?_)
  have htype : (p.found v).bind Value.typeName = (p.found w).bind Value.typeName :=
    (h p hp).alike.typeName
  rw [Place.flat, Place.flat, labelOf, labelOf, htype]

end Schema

namespace Reconciliation

theorem walkFields_missing_perm {fs : List Field} {n m : Option Value} (h : Agree fs n m)
    (above : String) (deprecated : Bool) :
    (walkFields above n deprecated fs).missing.Perm (walkFields above m deprecated fs).missing := by
  induction fs using Field.forest generalizing n m above deprecated with
  | nil => exact .refl _
  | cons d gs fs ihg ihf =>
    rw [walkFields_cons_missing, walkFields_cons_missing]
    refine List.Perm.append ?_ (ihf h.tail above deprecated)
    cases gs with
    | nil => exact .refl _
    | cons g gs => exact (ihg h.child _ _).append ((h.top.undeclared (g :: gs)).map _)

end Reconciliation

theorem Schema.Agree.missing {fs : List Field} {v w : Value} (hroot : Alike (some v) (some w))
    (h : Agree fs (some v) (some w)) :
    (reconcile fs v).missing.Perm (reconcile fs w).missing :=
  (walkFields_missing_perm h "" false).append ((hroot.undeclared fs).map _)

namespace Tiers

variable {keep : Declaration → Bool} {fs : List Field} {v w : Value}

theorem kept_congr (h : Agree fs (some v) (some w)) : kept keep v fs = kept keep w fs := by
  induction fs using Field.forest generalizing v w with
  | nil => rfl
  | cons d gs fs ihg ihf =>
    have hleaf := (h _ (top_mem_places List.mem_cons_self)).leaf
    have hkind := h.top.kind
    have hchild := h.child
    simp only [Option.bind_some, Place.found_top] at hleaf hkind hchild
    have hcopied : (v.getKey d.name).map (copied keep gs) = (w.getKey d.name).map (copied keep gs) := by
      by_cases hgs : gs.isEmpty
      · rw [hleaf (by simpa [Place.hasChildren] using hgs)]
      · cases hv : v.getKey d.name with
        | none =>
          rw [hv, Option.map_none, eq_comm, Option.map_eq_none_iff] at hkind
          rw [hkind]
        | some a =>
          rw [hv, Option.map_some, eq_comm, Option.map_eq_some_iff] at hkind
          obtain ⟨b, hw, _⟩ := hkind
          rw [hv, hw] at hchild
          rw [hw, Option.map_some, Option.map_some, copied, copied, if_neg hgs, if_neg hgs, extracted,
            extracted, ihg hchild]
    rw [kept_cons, kept_cons, ihf h.tail, keptField_eq, keptField_eq, hcopied]

theorem firstBlocked_congr (h : Agree fs (some v) (some w)) :
    firstBlocked keep v fs = firstBlocked keep w fs := by
  have hblocked : ∀ p ∈ places fs, p.isBlocked v = p.isBlocked w := by
    intro p hp
    have hmapping := (h p hp).alike.any_isNone_asMapping
    rw [Option.bind_some, Option.bind_some] at hmapping
    rw [Place.isBlocked, Place.isBlocked, hmapping]
  exact List.find?_congr (fun p hp => by rw [hblocked p hp])

theorem split_congr (hne : fs ≠ []) (hd : Distinct fs) (hroot : Alike (some v) (some w))
    (h : Agree fs (some v) (some w)) : split fs v = split fs w := by
  have hmapping : v.asMapping.isNone = w.asMapping.isNone := by
    simpa using hroot.any_isNone_asMapping
  have hextracted : extracted shownAdvanced v fs = extracted shownAdvanced w fs := by
    rw [extracted, extracted, kept_congr h]
  rw [split_eq hne hd, split_eq hne hd, hmapping, firstBlocked_congr h, hextracted]

/-- Entries in another order make the same tiers or the same error, and the same flattened fields. The
same paths are missing, though perhaps in another order. -/
theorem split_reconcile_reordered (hne : fs ≠ []) (hd : Distinct fs) (hk : KeysDiffer fs v)
    (h : Reordered fs v w) :
    split fs v = split fs w ∧ (reconcile fs v).fields = (reconcile fs w).fields ∧
      (reconcile fs v).missing.Perm (reconcile fs w).missing := by
  obtain ⟨hroot, hagree⟩ := h.agree hd hk
  exact ⟨split_congr hne hd hroot hagree, hagree.fields, hagree.missing hroot⟩

def listenerFields : List Field :=
  [⟨{ name := "source" }, [⟨{ name := "7" }, [.common "host" "", .advanced "port" ""]⟩]⟩,
    .common "mode" ""]

def listenerSample : Value :=
  .map [(.str "source", .map [(.int 7, .tagged "tcp"
      (.map [(.str "host", .str "a"), (.str "port", .int 80), (.str "tls", .null)])),
      (.str "extra", .null)]),
    (.str "mode", .str "fast"), (.str "more", .null)]

def listenerReversed : Value :=
  .map [(.str "more", .null), (.str "mode", .str "fast"),
    (.str "source", .map [(.str "extra", .null), (.int 7, .tagged "tcp"
      (.map [(.str "tls", .null), (.str "port", .int 80), (.str "host", .str "a")]))])]

theorem split_reconcile_reordered_listener :
    split listenerFields listenerSample = split listenerFields listenerReversed ∧
      (reconcile listenerFields listenerSample).missing =
        ["source.7.tls", "source.extra", "more"] ∧
      (reconcile listenerFields listenerSample).missing.Perm
        (reconcile listenerFields listenerReversed).missing := by
  have hl : (lintFields "" listenerFields).errors = [] := by decide +kernel
  have hd : Distinct listenerFields := (lintFields_errors_eq_nil.mp hl).distinct
  have hk : KeysDiffer listenerFields listenerSample := by
    refine ⟨by decide, ?_⟩
    have hplaces : ∀ p ∈ places listenerFields, p.hasChildren = true →
        ((p.found listenerSample).map Value.childKeys).all (fun ks => decide ks.Nodup) = true := by
      decide +kernel
    intro p hp hc u hu
    simpa [hu] using hplaces p hp hc
  have hinner : Reordered [⟨{ name := "7" }, [.common "host" "", .advanced "port" ""]⟩]
      (.map [(.int 7, .tagged "tcp"
        (.map [(.str "host", .str "a"), (.str "port", .int 80), (.str "tls", .null)])),
        (.str "extra", .null)])
      (.map [(.str "extra", .null), (.int 7, .tagged "tcp"
        (.map [(.str "tls", .null), (.str "port", .int 80), (.str "host", .str "a")]))]) := by
    refine .trans (.inside List.mem_cons_self (by simp) (by decide) (.tagged "tcp"
      (.entries (List.reverse_perm _).symm))) (.entries (List.Perm.swap ..))
  have h : Reordered listenerFields listenerSample listenerReversed :=
    .trans (.inside List.mem_cons_self (by simp) rfl hinner) (.entries (List.reverse_perm _).symm)
  obtain ⟨hsplit, _, hmissing⟩ := split_reconcile_reordered (by simp [listenerFields]) hd hk h
  exact ⟨hsplit, by decide +kernel, hmissing⟩

end Tiers

end ComponentDoc
