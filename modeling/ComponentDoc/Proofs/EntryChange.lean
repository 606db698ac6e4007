import ComponentDoc.Proofs.Keys

set_option autoImplicit false

namespace ComponentDoc.Value

def onEntries (change : List (Value × Value) → List (Value × Value)) : Value → Value
  | .map es => .map (change es)
  | .tagged t v => .tagged t (v.onEntries change)
  | v => v

def changeFirst (test : Value → Bool) (change : Value → Value) :
    List (Value × Value) → List (Value × Value)
  | [] => []
  | (k, v) :: es => if test k then (k, change v) :: es else (k, v) :: changeFirst test change es

/-- A change to the value that a name finds, under the exact string key or else the first that reads
as the name. -/
def changeFound (name : String) (change : Value → Value) (es : List (Value × Value)) :
    List (Value × Value) :=
  if (findExact name es).isSome then changeFirst (fun k => k.same (.str name)) change es
  else changeFirst (fun k => k.keyText == some name) change es

def keys (v : Value) : Option (List Value) := v.asMapping.map (List.map Prod.fst)

section

variable (change : List (Value × Value) → List (Value × Value))

@[simp] theorem asMapping_onEntries : ∀ v : Value,
    (v.onEntries change).asMapping = v.asMapping.map change
  | .map _ => rfl
  | .tagged _ v => asMapping_onEntries v
  | .null | .bool _ | .int _ | .float _ | .str _ | .seq _ => rfl

@[simp] theorem kind_onEntries : ∀ v : Value, (v.onEntries change).kind = v.kind
  | .map _ => rfl
  | .tagged _ v => kind_onEntries v
  | .null | .bool _ | .int _ | .float _ | .str _ | .seq _ => rfl

theorem onEntries_eq_self : ∀ v : Value, (∀ es, v.asMapping = some es → change es = es) →
    v.onEntries change = v
  | .map es, h => congrArg Value.map (h es rfl)
  | .tagged t v, h => congrArg (Value.tagged t) (onEntries_eq_self v h)
  | .null, _ | .bool _, _ | .int _, _ | .float _, _ | .str _, _ | .seq _, _ => rfl

end

section

variable {test other : Value → Bool} {change : Value → Value}

@[simp] theorem changeFirst_keys (es : List (Value × Value)) :
    (changeFirst test change es).map Prod.fst = es.map Prod.fst := by
  induction es with
  | nil => rfl
  | cons e es ih =>
    obtain ⟨k, v⟩ := e
    rw [changeFirst]
    split <;> simp [ih]

theorem find_changeFirst (test : Value → Bool) (change : Value → Value)
    (es : List (Value × Value)) :
    ((changeFirst test change es).find? (fun e => test e.1)).map Prod.snd =
      ((es.find? (fun e => test e.1)).map Prod.snd).map change := by
  induction es with
  | nil => rfl
  | cons e es ih =>
    obtain ⟨k, v⟩ := e
    cases hk : test k <;> simp [changeFirst, hk, ih]

theorem changeFirst_eq_self (es : List (Value × Value))
    (h : ∀ w, (es.find? (fun e => test e.1)).map Prod.snd = some w → change w = w) :
    changeFirst test change es = es := by
  induction es with
  | nil => rfl
  | cons e es ih =>
    obtain ⟨k, v⟩ := e
    rw [changeFirst]
    cases hk : test k with
    | true =>
      have hv : change v = v := h v (by simp [hk])
      rw [if_pos rfl, hv]
    | false =>
      rw [List.find?_cons_of_neg (by simp [hk])] at h
      rw [if_neg Bool.false_ne_true, ih h]

theorem find_changeFirst_of_disjoint (h : ∀ k, test k = true → other k = false)
    (es : List (Value × Value)) :
    (changeFirst test change es).find? (fun e => other e.1) = es.find? (fun e => other e.1) := by
  induction es with
  | nil => rfl
  | cons e es ih =>
    obtain ⟨k, v⟩ := e
    cases hk : test k with
    | true => simp [changeFirst, hk, h k hk]
    | false => simp [changeFirst, hk, List.find?_cons, ih]

end

theorem findExact_eq_none {name : String} {es : List (Value × Value)} :
    findExact name es = none ↔ .str name ∉ es.map Prod.fst := by
  rw [findExact_eq_find, Option.map_eq_none_iff, List.find?_eq_none]
  simp only [same_str_iff, List.mem_map, not_exists, not_and]

/-- A name finds the changed value, any other name what it has found before. -/
theorem findKey_changeFound (name other : String) (change : Value → Value)
    (es : List (Value × Value)) :
    findKey other (changeFound name change es) =
      if other = name then (findKey name es).map change else findKey other es := by
  unfold changeFound
  by_cases hother : other = name
  · subst hother
    rw [if_pos rfl]
    cases hexact : findExact other es with
    | some w =>
      have hfind : findExact other (changeFirst (fun k => k.same (.str other)) change es) =
          (findExact other es).map change := by
        rw [findExact_eq_find, findExact_eq_find, find_changeFirst (fun k => k.same (.str other))]
      simp [findKey, hexact, hfind]
    | none =>
      have hnone : findExact other (changeFirst (fun k => k.keyText == some other) change es) =
          none := by
        rw [findExact_eq_none, changeFirst_keys, ← findExact_eq_none]
        exact hexact
      have hfind : findText other (changeFirst (fun k => k.keyText == some other) change es) =
          (findText other es).map change := by
        rw [findText_eq_find, findText_eq_find, find_changeFirst (fun k => k.keyText == some other)]
      simp [findKey, hexact, hnone, hfind]
  · rw [if_neg hother]
    have hpass : ∀ k : Value, k.keyText = some name →
        k.same (.str other) = false ∧ (k.keyText == some other) = false := by
      intro k hk
      have hne : k.keyText ≠ some other := by simpa [hk] using Ne.symm hother
      exact ⟨same_str_of_keyText hne, beq_eq_false_iff_ne.mpr hne⟩
    simp only [findKey, findExact_eq_find other, findText_eq_find other]
    split
    · rw [find_changeFirst_of_disjoint (fun k hk => (hpass k (keyText_of_same_str hk)).1),
        find_changeFirst_of_disjoint (fun k hk => (hpass k (keyText_of_same_str hk)).2)]
    · rw [find_changeFirst_of_disjoint (fun k hk => (hpass k (beq_iff_eq.mp hk)).1),
        find_changeFirst_of_disjoint (fun k hk => (hpass k (beq_iff_eq.mp hk)).2)]

@[simp] theorem changeFound_keys (name : String) (change : Value → Value) (es : List (Value × Value)) :
    (changeFound name change es).map Prod.fst = es.map Prod.fst := by
  unfold changeFound
  split <;> exact changeFirst_keys es

theorem changeFound_eq_self {name : String} {change : Value → Value} {es : List (Value × Value)}
    (h : ∀ w, findKey name es = some w → change w = w) : changeFound name change es = es := by
  unfold changeFound
  cases hexact : findExact name es with
  | some w =>
    refine changeFirst_eq_self es (fun u hu => h u ?_)
    rw [← findExact_eq_find] at hu
    rw [findKey, hu, Option.some_or]
  | none =>
    refine changeFirst_eq_self es (fun u hu => h u ?_)
    rw [← findText_eq_find] at hu
    rw [findKey, hexact, Option.none_or, hu]

theorem getKey_onEntries (change : List (Value × Value) → List (Value × Value)) (v : Value)
    (name : String) :
    (v.onEntries change).getKey name = v.asMapping.bind (fun es => findKey name (change es)) := by
  rw [getKey, asMapping_onEntries]
  cases v.asMapping <;> rfl

theorem childKeys_eq (v : Value) :
    v.childKeys = (v.keys.map (List.filterMap keyText)).getD [] := by
  rw [childKeys, keys]
  cases v.asMapping with
  | none => rfl
  | some es => exact List.filterMap_map.symm

end ComponentDoc.Value
