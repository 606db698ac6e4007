import ComponentDoc.Normal

set_option autoImplicit false

namespace ComponentDoc

namespace Value

mutual

/-- Values that agree in every part, the order of entries and the bits of numbers included. -/
def identical : Value → Value → Bool
  | .null, .null => true
  | .bool a, .bool b => a == b
  | .int a, .int b => a == b
  | .float a, .float b => a == b
  | .str a, .str b => a == b
  | .seq as, .seq bs => identicalItems as bs
  | .map as, .map bs => identicalEntries as bs
  | .tagged t a, .tagged u b => t == u && a.identical b
  | _, _ => false

def identicalItems : List Value → List Value → Bool
  | [], [] => true
  | a :: as, b :: bs => a.identical b && identicalItems as bs
  | _, _ => false

def identicalEntries : List (Value × Value) → List (Value × Value) → Bool
  | [], [] => true
  | (j, a) :: as, (k, b) :: bs => j.identical k && a.identical b && identicalEntries as bs
  | _, _ => false

end

mutual

theorem eq_of_identical {v w : Value} (h : v.identical w = true) : v = w := by
  cases v <;> cases w <;>
    simp only [identical, Bool.false_eq_true, Bool.and_eq_true, beq_iff_eq] at h
  case null.null => rfl
  case bool.bool => rw [h]
  case int.int => rw [h]
  case float.float => rw [h]
  case str.str => rw [h]
  case seq.seq => rw [eq_of_identicalItems h]
  case map.map => rw [eq_of_identicalEntries h]
  case tagged.tagged => rw [h.1, eq_of_identical h.2]

theorem eq_of_identicalItems {vs ws : List Value} (h : identicalItems vs ws = true) : vs = ws := by
  cases vs <;> cases ws <;>
    simp only [identicalItems, Bool.false_eq_true, Bool.and_eq_true] at h
  case nil.nil => rfl
  case cons.cons => rw [eq_of_identical h.1, eq_of_identicalItems h.2]

theorem eq_of_identicalEntries {es fs : List (Value × Value)} (h : identicalEntries es fs = true) :
    es = fs := by
  match es, fs with
  | [], [] => rfl
  | (j, v) :: es, (k, w) :: fs =>
    simp only [identicalEntries, Bool.and_eq_true] at h
    rw [eq_of_identical h.1.1, eq_of_identical h.1.2, eq_of_identicalEntries h.2]
  | [], _ :: _ => simp [identicalEntries] at h
  | _ :: _, [] => simp [identicalEntries] at h

end

end Value

namespace Yaml

theorem write_eq {v : Value} {text : String}
    (h : (match write v with | .ok t => t == text | .error _ => false) = true) :
    write v = .ok text := by
  split at h
  next t ht => rw [ht, beq_iff_eq.mp h]
  next => cases h

theorem parseValue_eq {text : String} {v : Value}
    (h : (match parseValue text with | .ok w => w.identical v | .error _ => false) = true) :
    parseValue text = .ok v := by
  split at h
  next w hw => rw [hw, Value.eq_of_identical h]
  next => cases h

end Yaml

theorem Value.normalize_eq {v w : Value} {text : String} (hv : Yaml.write v = .ok text)
    (hw : Yaml.parseValue text = .ok w) : v.normalize = .ok w.stringKeys := by
  simp [normalize, hv, hw, bind, Except.bind]

end ComponentDoc
