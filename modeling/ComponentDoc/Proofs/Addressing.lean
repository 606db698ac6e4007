import Mathlib.Data.List.Nodup
import ComponentDoc.Proofs.DottedLookup
import ComponentDoc.Proofs.Extraction

/-!
Two ways to address a value: by a dotted path as one text, and by the names on the way to a place, one
key after the other. They agree on every value that holds a mapping wherever a field with children is
declared; a sequence on the way, which a path may index by position, is what that excludes.
-/

set_option autoImplicit false

namespace ComponentDoc

namespace Schema

/-- The value is a mapping, and so is what it holds at every kept field with children. -/
structure Fits (keep : Declaration → Bool) (v : Value) (fs : List Field) : Prop where
  root : v.asMapping.isSome = true
  below : ∀ p ∈ places fs, p.isKept keep = true → p.isBlocked v = false

theorem firstBlocked_eq_none {keep : Declaration → Bool} {v : Value} {fs : List Field} :
    firstBlocked keep v fs = none ↔
      ∀ p ∈ places fs, p.isKept keep = true → p.isBlocked v = false := by
  simp [firstBlocked, List.find?_eq_none]

variable {keep : Declaration → Bool} {fs : List Field}

theorem children_ne_nil_of_mem {gs : List Field} {q : Place} (hq : q ∈ places gs) : gs ≠ [] := by
  intro heq
  subst heq
  cases hq

theorem Fits.child {v w : Value} {d : Declaration} {gs : List Field} (h : Fits keep v fs)
    (hmem : ⟨d, gs⟩ ∈ fs) (hk : keep d = true) (hgs : gs ≠ []) (hw : v.getKey d.name = some w) :
    Fits keep w gs := by
  constructor
  · have htop := h.below _ (top_mem_places hmem) (by simpa using hk)
    have he : gs.isEmpty = false := by simpa using hgs
    rw [Place.isBlocked_top, hw, he] at htop
    cases hm : w.asMapping <;> simp [hm] at htop ⊢
  · intro q hq hkq
    have hunder := h.below _ (under_mem_places hmem hq) (by simp [hk, hkq])
    simpa [Place.isBlocked_under, hw] using hunder

theorem fits_extracted (h : Distinct fs) (keep' : Declaration → Bool) (v : Value) :
    Fits keep' (Tiers.extracted keep v fs) fs := by
  refine ⟨?_, fun p hp _ => Tiers.isBlocked_extracted h hp v⟩
  simp [Tiers.extracted, Value.ofEntries, Value.asMapping]

theorem Fits.alongMappings {v : Value} (h : Fits keep v fs) {p : Place} (hp : p ∈ places fs)
    (hk : p.isKept keep = true) : v.AlongMappings p.names := by
  induction hp using places_induction generalizing v with
  | top fs d gs hmem =>
    exact Value.alongMappings_cons.mpr ⟨h.root, fun w _ => Value.alongMappings_nil w⟩
  | under fs d gs q hmem hq ih =>
    rw [Place.isKept_under, Bool.and_eq_true] at hk
    have hbelow (w : Value) (hw : v.getKey d.name = some w) : w.AlongMappings q.names :=
      ih (h.child hmem hk.1 (children_ne_nil_of_mem hq) hw) hk.2
    exact Value.alongMappings_cons.mpr ⟨h.root, hbelow⟩

theorem WellNamed.no_dot (h : WellNamed fs) {p : Place} (hp : p ∈ places fs) :
    ∀ n ∈ p.names, '.' ∉ n.toList :=
  fun n hn => no_dot_of_isFieldName (h.isFieldName_of_mem_names hp n hn)

/-- A kept place is found under its dotted path as it is found name by name. -/
theorem lookup_path (hn : WellNamed fs) {v : Value} (h : Fits keep v fs) {p : Place}
    (hp : p ∈ places fs) (hk : p.isKept keep = true) : v.lookup p.path = p.found v := by
  have hnames : ∀ n ∈ p.names, n ≠ "" ∧ '.' ∉ n.toList := fun n hmem =>
    ⟨ne_empty_of_isFieldName (hn.isFieldName_of_mem_names hp n hmem), hn.no_dot hp n hmem⟩
  exact Value.lookup_ofNames hnames (h.alongMappings hp hk)

theorem levelName_path (hn : WellNamed fs) {p : Place} (hp : p ∈ places fs) (above : String) :
    Path.levelName (above ++ p.path ++ ".") = above ++ p.path := by
  induction hp using places_induction generalizing above with
  | top fs d gs hmem =>
    have hname := hn.isFieldName hmem
    rw [Place.path_top]
    exact Path.levelName_below (ne_empty_of_isFieldName hname) (no_dot_of_isFieldName hname)
  | under fs d gs q hmem _ ih =>
    have hbelow := ih (hn.children hmem) (above ++ d.name ++ ".")
    simpa only [Place.path_under, String.append_assoc] using hbelow

theorem path_injective (hn : WellNamed fs) {p q : Place} (hp : p ∈ places fs) (hq : q ∈ places fs)
    (h : p.path = q.path) : p.names = q.names :=
  Path.ofNames_injective p.names_ne_nil q.names_ne_nil (hn.no_dot hp) (hn.no_dot hq) h

theorem names_nodup (h : Distinct fs) : ((places fs).map Place.names).Nodup := by
  induction fs using Field.forest with
  | nil => simp
  | cons d gs fs ihg ihf =>
    obtain ⟨hd, hgs, hfs⟩ := distinct_cons.mp h
    have hhead : ∀ p ∈ places fs, p.names.head? ≠ some d.name := by
      intro p hp
      obtain ⟨e, hs, hmem, rfl | ⟨q, _, rfl⟩⟩ := mem_places_iff.mp hp <;>
        simpa using fun he : e.name = d.name => hd (he ▸ List.mem_map_of_mem hmem)
    have hbelow : (((places gs).map (Place.under d)).map Place.names).Nodup := by
      have hmap := (ihg hgs).map (List.cons_injective (a := d.name))
      rwa [List.map_map] at hmap ⊢
    rw [places_cons, List.map_cons, List.map_append, List.nodup_cons, List.nodup_append]
    refine ⟨?_, hbelow, ihf hfs, ?_⟩
    · rw [List.mem_append, not_or, List.map_map]
      constructor
      · intro hmem
        obtain ⟨q, _, hq⟩ := List.mem_map.mp hmem
        exact q.names_ne_nil (List.cons.inj hq).2
      · intro hmem
        obtain ⟨p, hp, hnames⟩ := List.mem_map.mp hmem
        exact hhead p hp (by rw [hnames]; rfl)
    · rw [List.map_map]
      intro a ha b hb hab
      obtain ⟨q, _, rfl⟩ := List.mem_map.mp ha
      obtain ⟨p, hp, rfl⟩ := List.mem_map.mp hb
      exact hhead p hp (by rw [← hab]; rfl)

theorem eq_of_path_eq (hn : WellNamed fs) {p q : Place} (hp : p ∈ places fs)
    (hq : q ∈ places fs) (h : p.path = q.path) : p = q :=
  List.inj_on_of_nodup_map (names_nodup hn.distinct) hp hq (path_injective hn hp hq h)

theorem paths_nodup (hn : WellNamed fs) : ((places fs).map Place.path).Nodup := by
  have hplaces : (places fs).Nodup := List.Nodup.of_map _ (names_nodup hn.distinct)
  exact hplaces.map_on (fun p hp q hq h => eq_of_path_eq hn hp hq h)

end Schema

end ComponentDoc
