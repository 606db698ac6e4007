import ComponentDoc.Proofs.DottedPath
import ComponentDoc.Value.Access

set_option autoImplicit false

namespace ComponentDoc.Value

theorem isSome_asMapping : ∀ v : Value, v.asMapping.isSome = decide (v.kind = .mapping)
  | .map _ => rfl
  | .tagged _ v => isSome_asMapping v
  | .null | .bool _ | .int _ | .float _ | .str _ | .seq _ => rfl

theorem isNone_asMapping_congr {v w : Value} (h : v.kind = w.kind) :
    v.asMapping.isNone = w.asMapping.isNone := by
  rw [← Option.not_isSome, ← Option.not_isSome, isSome_asMapping, isSome_asMapping, h]

def textKeyed (es : List (String × Value)) : List (Value × Value) :=
  es.map (fun e => (.str e.1, e.2))

@[simp] theorem textKeyed_nil : textKeyed [] = [] := rfl

@[simp] theorem textKeyed_cons (e : String × Value) (es : List (String × Value)) :
    textKeyed (e :: es) = (.str e.1, e.2) :: textKeyed es := rfl

@[simp] theorem textKeyed_append (es fs : List (String × Value)) :
    textKeyed (es ++ fs) = textKeyed es ++ textKeyed fs := List.map_append

theorem same_str_iff {k : Value} {s : String} : k.same (.str s) = true ↔ k = .str s := by
  cases k <;> simp [same]

theorem keyText_of_same_str {k : Value} {s : String} (h : k.same (.str s) = true) :
    k.keyText = some s := by
  rw [same_str_iff.mp h, keyText]

theorem same_str_of_keyText {k : Value} {s : String} (h : k.keyText ≠ some s) :
    k.same (.str s) = false := by
  rw [← Bool.not_eq_true]
  exact fun hk => h (keyText_of_same_str hk)

theorem findExact_cons (name : String) (k v : Value) (es : List (Value × Value)) :
    findExact name ((k, v) :: es) =
      (if k.same (.str name) then some v else none).or (findExact name es) := by
  cases k with
  | str s =>
    have hsame : (Value.str s).same (.str name) = (s == name) := rfl
    rw [findExact, hsame]
    by_cases hs : s = name <;> simp [hs]
  | _ => rfl

theorem findExact_eq_find (name : String) (es : List (Value × Value)) :
    findExact name es = (es.find? (fun e => e.1.same (.str name))).map Prod.snd := by
  induction es with
  | nil => rfl
  | cons e es ih =>
    obtain ⟨k, v⟩ := e
    rw [findExact_cons, List.find?_cons, ih]
    cases k.same (.str name) <;> rfl

theorem findText_eq_find (name : String) (es : List (Value × Value)) :
    findText name es = (es.find? (fun e => e.1.keyText == some name)).map Prod.snd := by
  induction es with
  | nil => rfl
  | cons e es ih =>
    obtain ⟨k, v⟩ := e
    by_cases hk : k.keyText = some name <;> simp [findText, hk, ih]

/-- What is stored last under the first key of a mapping takes its value's place, all else goes behind
it. -/
theorem insertAll_cons (k v : Value) (es fs : List (Value × Value)) :
    insertAll ((k, v) :: es) fs =
      (k, ((fs.reverse.find? (fun f => k.same f.1)).map Prod.snd).getD v) ::
        insertAll es (fs.filter (fun f => !k.same f.1)) := by
  induction fs generalizing v es with
  | nil => rfl
  | cons f fs ih =>
    obtain ⟨j, u⟩ := f
    rw [insertAll, insert, List.reverse_cons, List.find?_append]
    cases hj : k.same j with
    | true =>
      rw [if_pos rfl, ih]
      cases fs.reverse.find? (fun f => k.same f.1) <;> simp [hj]
    | false => simp [hj, insertAll, ih v (insert j u es)]

theorem insert_textKeyed {name : String} {v : Value} {es : List (String × Value)}
    (h : name ∉ es.map Prod.fst) :
    insert (.str name) v (textKeyed es) = textKeyed (es ++ [(name, v)]) := by
  induction es with
  | nil => rfl
  | cons e es ih =>
    obtain ⟨hne, hmem⟩ : name ≠ e.1 ∧ name ∉ es.map Prod.fst := by simpa using h
    simp [insert, same, Ne.symm hne, ih hmem]

theorem insertAll_textKeyed {es fs : List (String × Value)}
    (h : ((es ++ fs).map Prod.fst).Nodup) :
    insertAll (textKeyed es) (textKeyed fs) = textKeyed (es ++ fs) := by
  induction fs generalizing es with
  | nil => simp [insertAll]
  | cons f fs ih =>
    have hnew : f.1 ∉ es.map Prod.fst := by
      rw [List.map_append, List.nodup_append] at h
      exact fun hmem => h.2.2 _ hmem _ (by simp) rfl
    rw [textKeyed_cons, insertAll, insert_textKeyed hnew, ih (by simpa using h)]
    simp

theorem ofEntries_textKeyed {es : List (String × Value)} (h : (es.map Prod.fst).Nodup) :
    ofEntries (textKeyed es) = .map (textKeyed es) := by
  have hempty : insertAll (textKeyed []) (textKeyed es) = textKeyed ([] ++ es) :=
    insertAll_textKeyed (by simpa using h)
  exact congrArg Value.map hempty

theorem find_textKeyed {name : String} (test : Value → Bool)
    (htest : ∀ s, test (.str s) = (s == name)) (es : List (String × Value)) :
    ((textKeyed es).find? (fun e => test e.1)).map Prod.snd = es.lookup name := by
  induction es with
  | nil => rfl
  | cons e es ih =>
    obtain ⟨n, v⟩ := e
    by_cases hn : n = name
    · simp [htest, hn]
    · simp [htest, hn, ih, List.lookup_cons, beq_eq_false_iff_ne.mpr (Ne.symm hn)]

@[simp] theorem getKey_textKeyed (name : String) (es : List (String × Value)) :
    getKey (.map (textKeyed es)) name = es.lookup name := by
  have hexact : ((textKeyed es).find? (fun e => e.1.same (.str name))).map Prod.snd =
      es.lookup name := find_textKeyed (fun k => k.same (.str name)) (by simp [same]) es
  have htext : ((textKeyed es).find? (fun e => e.1.keyText == some name)).map Prod.snd =
      es.lookup name := find_textKeyed (fun k => k.keyText == some name) (by simp [keyText]) es
  rw [getKey, asMapping, Option.bind_some, findKey, findExact_eq_find, findText_eq_find, hexact,
    htext, Option.or_self]

@[simp] theorem childKeys_textKeyed (es : List (String × Value)) :
    childKeys (.map (textKeyed es)) = es.map Prod.fst := by
  have htexts : keyTexts (textKeyed es) = es.map Prod.fst := by
    induction es with
    | nil => rfl
    | cons e es ih => simpa [keyTexts, keyText] using ih
  simp [childKeys, asMapping, htexts]

/-- Changing the values of a mapping changes what a name finds and not where it is found. -/
theorem findKey_map (change : Value → Value) (name : String) (es : List (Value × Value)) :
    findKey name (es.map (fun e => (e.1, change e.2))) = (findKey name es).map change := by
  have hfind : ∀ test : Value → Bool,
      ((es.map (fun e => (e.1, change e.2))).find? (fun e => test e.1)).map Prod.snd =
        ((es.find? (fun e => test e.1)).map Prod.snd).map change := by
    intro test
    rw [List.find?_map, Option.map_map, Option.map_map]
    rfl
  rw [findKey, findKey, findExact_eq_find, findExact_eq_find, findText_eq_find, findText_eq_find,
    hfind (fun k => k.same (.str name)), hfind (fun k => k.keyText == some name), Option.map_or]

theorem step_eq_getKey : ∀ {v : Value}, v.asMapping.isSome = true → ∀ name : String,
    v.step name.toList = v.getKey name
  | .map _, _, name => by simp [step, getKey, asMapping]
  | .tagged _ v, h, name => @step_eq_getKey v h name

end ComponentDoc.Value
