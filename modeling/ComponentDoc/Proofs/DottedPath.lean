import ComponentDoc.Schema.Enforce
import ComponentDoc.Value.Access

set_option autoImplicit false

namespace ComponentDoc.Path

def ofNames (names : List String) : String := ".".intercalate names

@[simp] theorem ofNames_singleton (name : String) : ofNames [name] = name := by
  simp [ofNames]

theorem ofNames_cons {name : String} {names : List String} (h : names ≠ []) :
    ofNames (name :: names) = name ++ "." ++ ofNames names :=
  String.intercalate_cons_of_ne_nil h

theorem ofNames_concat {names : List String} (h : names ≠ []) (name : String) :
    ofNames (names ++ [name]) = ofNames names ++ "." ++ name := by
  induction names with
  | nil => contradiction
  | cons n ns ih =>
    cases ns with
    | nil => simp [ofNames]
    | cons m ms =>
      have htail := ih (List.cons_ne_nil m ms)
      rw [List.cons_append, ofNames_cons (by simp), htail, ofNames_cons (List.cons_ne_nil m ms)]
      simp only [String.append_assoc]

theorem segments_eq_splitOn (cs : List Char) : segments cs = cs.splitOn '.' := by
  induction cs with
  | nil => rfl
  | cons c cs ih =>
    rw [List.splitOn_cons_eq_if_modifyHead, ← ih, segments]
    by_cases hc : c = '.'
    · simp [hc]
    · simp only [hc, if_false, beq_iff_eq]
      cases hs : segments cs with
      | nil => exact absurd (ih.symm.trans hs) (List.splitOn_ne_nil _ _)
      | cons s ss => rfl

theorem segments_append_dot (cs ds : List Char) :
    segments (cs ++ '.' :: ds) = segments cs ++ segments ds := by
  rw [segments_eq_splitOn, segments_eq_splitOn, segments_eq_splitOn, List.splitOn_append_cons_self]

/-- Joining names without dots loses nothing. -/
theorem segments_ofNames {names : List String} (hn : names ≠ [])
    (hd : ∀ n ∈ names, '.' ∉ n.toList) :
    segments (ofNames names).toList = names.map String.toList := by
  have hdot : ".".toList = ['.'] := by decide
  rw [segments_eq_splitOn, ofNames, String.toList_intercalate, hdot]
  apply List.splitOn_intercalate
  · intro l hl
    obtain ⟨n, hmem, rfl⟩ := List.mem_map.mp hl
    exact hd n hmem
  · simpa using hn

theorem ofNames_injective {names others : List String} (hn : names ≠ []) (ho : others ≠ [])
    (hnd : ∀ n ∈ names, '.' ∉ n.toList) (hod : ∀ n ∈ others, '.' ∉ n.toList)
    (h : ofNames names = ofNames others) : names = others := by
  have hs := segments_ofNames hn hnd
  rw [h, segments_ofNames ho hod] at hs
  exact ((List.map_inj_right (fun _ _ => String.toList_inj.mp)).mp hs).symm

theorem ofNames_ne_empty {names : List String} (hn : names ≠ []) (he : ∀ n ∈ names, n ≠ "") :
    ofNames names ≠ "" := by
  cases names with
  | nil => exact absurd rfl hn
  | cons n ns =>
    cases ns with
    | nil => simpa using he n (by simp)
    | cons m ms => simp [ofNames]

/-- The dot that closes the path to a level is no part of the level's name. -/
theorem levelName_below {above name : String} (hne : name ≠ "") (hd : '.' ∉ name.toList) :
    levelName (above ++ name ++ ".") = above ++ name := by
  have hdot : ".".toList = ['.'] := by decide
  have hrev : name.toList.reverse ≠ [] := by simpa using hne
  have htrim : trimDots (above ++ name ++ ".") = above ++ name := by
    unfold trimDots
    obtain ⟨c, cs, hc⟩ := List.exists_cons_of_ne_nil hrev
    have hcd : c ≠ '.' := by
      intro heq
      subst heq
      exact hd (List.mem_reverse.mp (by simp [hc]))
    apply String.toList_injective
    have hname : name.toList = cs.reverse ++ [c] := by
      rw [← List.reverse_reverse name.toList, hc, List.reverse_cons]
    simp [hdot, hname, hcd]
  have hlevel : above ++ name ≠ "" := by simp [hne]
  rw [levelName, htrim, if_neg hlevel]

theorem levelName_root : levelName "" = "<root>" := by decide

end ComponentDoc.Path

namespace ComponentDoc.Schema

theorem no_dot_of_isFieldName {s : String} (h : isFieldName s = true) : '.' ∉ s.toList := by
  intro hmem
  simp only [isFieldName, Bool.and_eq_true, List.all_eq_true] at h
  exact absurd (h.2 '.' hmem) (by decide)

theorem ne_empty_of_isFieldName {s : String} (h : isFieldName s = true) : s ≠ "" := by
  intro he
  simp [isFieldName, he] at h

end ComponentDoc.Schema
