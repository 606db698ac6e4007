import ComponentDoc.Proofs.Addressing
import ComponentDoc.Proofs.Flattening

/-!
The flattened fields as a listing of the schema. A declaration has an address: the positions, among
their siblings, of the declarations on the way to it. The lexicographic order of addresses puts a
declaration before what stands beneath it, and that before its next sibling. The walk lists every
declaration once and in this order, whatever the example; the path of each leads back to the names
on the way.
-/

set_option autoImplicit false

namespace ComponentDoc

open Schema

def Place.field (p : Place) : Field := ⟨p.declaration, p.children⟩

namespace FlatField

def field (f : FlatField) : Field := ⟨f.declaration, []⟩

/-- What a flattened field has from the schema alone. -/
def unlabelled (f : FlatField) : String × Declaration := (f.path, f.declaration)

end FlatField

/-- A flattened field presents a declaration where it stands. -/
structure Place.PresentedBy (p : Place) (f : FlatField) : Prop where
  path : f.path = Path.ofNames p.names
  segments : (f.path.toList.splitOn '.').map String.ofList = p.names
  declared : f.field =
    p.field.leaf.modify (fun d => { d with deprecated := f.declaration.deprecated })
  deprecated : f.declaration.deprecated = true ↔ ∃ d ∈ p.chain, d.deprecated = true

namespace Schema

/-- The declaration at an address. -/
def placeAt : List Field → List Nat → Option Place
  | _, [] => none
  | fs, [i] => fs[i]?.map (fun f => .top f.declaration f.children)
  | fs, i :: j :: js =>
    fs[i]?.bind (fun f => (placeAt f.children (j :: js)).map (Place.under f.declaration))

/-- The listed fields are the declarations of a schema in the order of their addresses, none left
out and none listed twice. -/
structure Lists (fs : List Field) (listed : List FlatField) : Prop where
  inOrder : ∃ as : List (List Nat), as.Pairwise (List.Lex (· < ·)) ∧
    (∀ a, a ∈ as ↔ (placeAt fs a).isSome = true) ∧
    List.Forall₂ (fun a f => ∃ p, placeAt fs a = some p ∧ p.PresentedBy f) as listed
  distinct : (listed.map FlatField.path).Nodup

end Schema

def Schema.pushed : List Nat → List Nat
  | [] => []
  | i :: is => (i + 1) :: is

mutual

def Field.addresses : Field → List (List Nat)
  | ⟨_, gs⟩ => [0] :: (Schema.addresses gs).map (0 :: ·)

def Schema.addresses : List Field → List (List Nat)
  | [] => []
  | f :: fs => f.addresses ++ (Schema.addresses fs).map Schema.pushed

end

namespace Schema

theorem addresses_cons (d : Declaration) (gs fs : List Field) :
    addresses (⟨d, gs⟩ :: fs) =
      [0] :: ((addresses gs).map (0 :: ·) ++ (addresses fs).map pushed) := rfl

theorem placeAt_pushed (f : Field) (fs : List Field) (a : List Nat) :
    placeAt (f :: fs) (pushed a) = placeAt fs a := by
  match a with
  | [] => rfl
  | [i] => simp [pushed, placeAt]
  | i :: j :: js => simp [pushed, placeAt]

theorem placeAt_beneath (d : Declaration) (gs fs : List Field) {a : List Nat} (h : a ≠ []) :
    placeAt (⟨d, gs⟩ :: fs) (0 :: a) = (placeAt gs a).map (Place.under d) := by
  obtain ⟨i, is, rfl⟩ := List.exists_cons_of_ne_nil h
  rfl

theorem ne_nil_of_mem_addresses {fs : List Field} {a : List Nat} (h : a ∈ addresses fs) :
    a ≠ [] := by
  induction fs using Field.forest generalizing a with
  | nil => simp [addresses] at h
  | cons d gs fs ihg ihf =>
    rw [addresses_cons, List.mem_cons, List.mem_append, List.mem_map, List.mem_map] at h
    rcases h with rfl | ⟨b, _, rfl⟩ | ⟨b, hb, rfl⟩
    · simp
    · simp
    · obtain ⟨i, is, rfl⟩ := List.exists_cons_of_ne_nil (ihf hb)
      simp [pushed]

theorem map_placeAt_addresses (fs : List Field) :
    (addresses fs).map (placeAt fs) = (places fs).map some := by
  induction fs using Field.forest with
  | nil => rfl
  | cons d gs fs ihg ihf =>
    have hbeneath : (addresses gs).map (fun a => placeAt (⟨d, gs⟩ :: fs) (0 :: a)) =
        ((places gs).map (Place.under d)).map some := by
      calc
        (addresses gs).map (fun a => placeAt (⟨d, gs⟩ :: fs) (0 :: a)) =
            ((addresses gs).map (placeAt gs)).map (Option.map (Place.under d)) := by
          rw [List.map_map]
          exact List.map_congr_left
            (fun a ha => placeAt_beneath d gs fs (ne_nil_of_mem_addresses ha))
        _ = ((places gs).map (Place.under d)).map some := by
          rw [ihg, List.map_map, List.map_map]
          rfl
    have hbeside : (addresses fs).map (fun a => placeAt (⟨d, gs⟩ :: fs) (pushed a)) =
        (places fs).map some := by
      rw [← ihf]
      exact List.map_congr_left (fun a _ => placeAt_pushed _ fs a)
    rw [addresses_cons, places_cons, List.map_cons, List.map_append, List.map_map, List.map_map,
      List.map_cons, List.map_append, ← hbeneath, ← hbeside]
    rfl

theorem mem_addresses {fs : List Field} {a : List Nat} :
    a ∈ addresses fs ↔ (placeAt fs a).isSome = true := by
  constructor
  · intro h
    have hplace : placeAt fs a ∈ (places fs).map some := by
      rw [← map_placeAt_addresses]
      exact List.mem_map_of_mem h
    obtain ⟨p, _, hp⟩ := List.mem_map.mp hplace
    rw [← hp]
    rfl
  · intro h
    induction fs using Field.forest generalizing a with
    | nil => match a with
      | [] => cases h
      | [i] => simp [placeAt] at h
      | i :: j :: js => simp [placeAt] at h
    | cons d gs fs ihg ihf =>
      rw [addresses_cons, List.mem_cons, List.mem_append, List.mem_map, List.mem_map]
      match a with
      | [] => cases h
      | [0] => exact .inl rfl
      | 0 :: j :: js =>
        rw [placeAt_beneath d gs fs (List.cons_ne_nil j js), Option.isSome_map] at h
        exact .inr (.inl ⟨j :: js, ihg h, rfl⟩)
      | (i + 1) :: is =>
        have hbeside : (placeAt fs (i :: is)).isSome = true := by
          rwa [← placeAt_pushed ⟨d, gs⟩ fs (i :: is)]
        exact .inr (.inr ⟨i :: is, ihf hbeside, rfl⟩)

theorem pushed_lex {a b : List Nat} (h : List.Lex (· < ·) a b) :
    List.Lex (· < ·) (pushed a) (pushed b) := by
  cases h with
  | nil => exact .nil
  | cons h => exact .cons h
  | rel h => exact .rel (Nat.succ_lt_succ h)

theorem lex_zero_pushed (a : List Nat) {b : List Nat} (h : b ≠ []) :
    List.Lex (· < ·) (0 :: a) (pushed b) := by
  obtain ⟨j, js, rfl⟩ := List.exists_cons_of_ne_nil h
  exact .rel (Nat.succ_pos j)

theorem addresses_pairwise (fs : List Field) : (addresses fs).Pairwise (List.Lex (· < ·)) := by
  induction fs using Field.forest with
  | nil => exact .nil
  | cons d gs fs ihg ihf =>
    rw [addresses_cons, List.pairwise_cons, List.pairwise_append]
    refine ⟨?_, ihg.map _ (fun _ _ h => .cons h), ihf.map _ (fun _ _ h => pushed_lex h), ?_⟩
    · intro a ha
      rcases List.mem_append.mp ha with ha | ha
      · obtain ⟨b, hb, rfl⟩ := List.mem_map.mp ha
        obtain ⟨j, js, rfl⟩ := List.exists_cons_of_ne_nil (ne_nil_of_mem_addresses hb)
        exact .cons .nil
      · obtain ⟨b, hb, rfl⟩ := List.mem_map.mp ha
        exact lex_zero_pushed [] (ne_nil_of_mem_addresses hb)
    · rw [List.forall_mem_map]
      intro a _
      rw [List.forall_mem_map]
      exact fun b hb => lex_zero_pushed a (ne_nil_of_mem_addresses hb)

theorem presentedBy_flat {fs : List Field} (hn : WellNamed fs) (v : Value) {p : Place}
    (hp : p ∈ places fs) : p.PresentedBy (p.flat v) where
  path := rfl
  segments := by
    have hsegments := Path.segments_ofNames p.names_ne_nil (hn.no_dot hp)
    rw [Path.segments_eq_splitOn] at hsegments
    have hpath : (p.flat v).path = Path.ofNames p.names := rfl
    rw [hpath, hsegments, List.map_map]
    simp [Function.comp_def]
  declared := rfl
  deprecated := by
    have hdeprecated : (p.flat v).declaration.deprecated = !p.isLive := rfl
    simp [hdeprecated, Place.isLive, Place.isKept]

theorem lists_reconcile {fs : List Field} (hn : WellNamed fs) (v : Value) :
    Lists fs (reconcile fs v).fields where
  inOrder := by
    have hpresented : List.Forall₂ (fun o f => ∃ p, o = some p ∧ p.PresentedBy f)
        ((addresses fs).map (placeAt fs)) (reconcile fs v).fields := by
      rw [map_placeAt_addresses, reconcile_fields, List.forall₂_map_left_iff,
        List.forall₂_map_right_iff, List.forall₂_same]
      exact fun p hp => ⟨p, rfl, presentedBy_flat hn v hp⟩
    exact ⟨addresses fs, addresses_pairwise fs, fun _ => mem_addresses,
      List.forall₂_map_left_iff.mp hpresented⟩
  distinct := by
    rw [reconcile_fields, List.map_map]
    exact paths_nodup hn

theorem reconcile_unlabelled (fs : List Field) (v w : Value) :
    (reconcile fs v).fields.map FlatField.unlabelled =
      (reconcile fs w).fields.map FlatField.unlabelled := by
  rw [reconcile_fields, reconcile_fields, List.map_map, List.map_map]
  rfl

/-- Without lint errors, reconciliation lists the declarations of a schema in pre-order, each under
the path whose segments are the names on the way to it, without its children, and as deprecated if
it or a declaration above it is. No two paths are the same, and nothing of this depends on the
example. -/
theorem reconcile_lists_preorder {fs : List Field} (hl : (lintFields "" fs).errors = [])
    (v : Value) :
    Lists fs (reconcile fs v).fields ∧ ∀ w, (reconcile fs w).fields.map FlatField.unlabelled =
      (reconcile fs v).fields.map FlatField.unlabelled := by
  have hn : WellNamed fs := (lintFields_errors_eq_nil.mp hl).toWellNamed
  exact ⟨lists_reconcile hn v, fun w => reconcile_unlabelled fs w v⟩

def archiveFields : List Field :=
  [⟨{ name := "source" }, [.common "path" "",
      ⟨{ name := "legacy", deprecated := true }, [.common "path" ""]⟩]⟩,
    ⟨{ name := "mode", type := "int", advanced := true }, []⟩]

def archiveSample : Value :=
  .map [(.str "mode", .int 3), (.str "source", .map [(.str "path", .str "in")])]

theorem reconcile_lists_preorder_archive :
    (lintFields "" archiveFields).errors = [] ∧
      Lists archiveFields (reconcile archiveFields archiveSample).fields ∧
      (reconcile archiveFields (.map [])).fields.map FlatField.unlabelled =
        (reconcile archiveFields archiveSample).fields.map FlatField.unlabelled ∧
      (reconcile archiveFields (.map [])).fields.map FlatField.label ≠
        (reconcile archiveFields archiveSample).fields.map FlatField.label := by
  have hl : (lintFields "" archiveFields).errors = [] := by decide +kernel
  obtain ⟨hlists, hsame⟩ := reconcile_lists_preorder hl archiveSample
  exact ⟨hl, hlists, hsame (.map []), by decide +kernel⟩

end Schema

end ComponentDoc
