import ComponentDoc.Proofs.Keys

/-!
Lookup along a dotted path, put together from lookups along its parts. The text of a path is cut into
segments anew on every lookup, and what a dot joins is cut apart again at that dot; so a path leads where
its second part leads from the end of its first. Along mappings this goes down to single names.
-/

set_option autoImplicit false

namespace ComponentDoc.Value

variable {v w : Value} {n : String} {names : List String}

theorem follow_append (v : Value) (front back : List (List Char)) :
    v.follow (front ++ back) = (v.follow front).bind (fun w => w.follow back) := by
  induction front generalizing v with
  | nil => rfl
  | cons s ss ih =>
    rw [List.cons_append, follow, follow, Option.bind_assoc]
    exact Option.bind_congr (fun w _ => ih w)

theorem lookup_of_ne_empty {path : String} (h : path ≠ "") (v : Value) :
    v.lookup path = v.follow (Path.segments path.toList) := if_neg h

theorem lookup_append_dot {p q : String} (hp : p ≠ "") (hq : q ≠ "") (v : Value) :
    v.lookup (p ++ "." ++ q) = (v.lookup p).bind (fun w => w.lookup q) := by
  have hjoined : p ++ "." ++ q ≠ "" := by simp
  have htext : (p ++ "." ++ q).toList = p.toList ++ '.' :: q.toList := by simp
  calc
    v.lookup (p ++ "." ++ q) = v.follow (Path.segments p.toList ++ Path.segments q.toList) := by
      rw [lookup_of_ne_empty hjoined, htext, Path.segments_append_dot]
    _ = (v.follow (Path.segments p.toList)).bind (fun w => w.follow (Path.segments q.toList)) :=
      follow_append v _ _
    _ = (v.lookup p).bind (fun w => w.lookup q) := by
      rw [lookup_of_ne_empty hp]
      exact Option.bind_congr (fun w _ => (lookup_of_ne_empty hq w).symm)

/-- Every value along a chain of names, the one at its end apart, is absent or a mapping. -/
def AlongMappings (v : Value) (names : List String) : Prop :=
  ∀ i < names.length, ∀ w, (names.take i).foldlM getKey v = some w → w.asMapping.isSome = true

theorem alongMappings_nil (v : Value) : v.AlongMappings [] := by
  intro i hi
  cases hi

theorem alongMappings_cons :
    v.AlongMappings (n :: names) ↔
      v.asMapping.isSome = true ∧ ∀ w, v.getKey n = some w → w.AlongMappings names := by
  constructor
  · intro h
    refine ⟨h 0 (Nat.succ_pos _) v rfl, fun w hw i hi u hu => ?_⟩
    refine h (i + 1) (Nat.succ_lt_succ hi) u ?_
    rw [List.take_succ_cons, List.foldlM_cons, hw]
    exact hu
  · intro h i hi u hu
    obtain ⟨hroot, hbelow⟩ := h
    cases i with
    | zero =>
      cases hu
      exact hroot
    | succ i =>
      rw [List.take_succ_cons, List.foldlM_cons] at hu
      obtain ⟨w, hw, hu⟩ := Option.bind_eq_some_iff.mp hu
      exact hbelow w hw i (Nat.lt_of_succ_lt_succ hi) u hu

theorem follow_of_alongMappings (h : v.AlongMappings names) :
    v.follow (names.map String.toList) = names.foldlM getKey v := by
  induction names generalizing v with
  | nil => rfl
  | cons n ns ih =>
    obtain ⟨hroot, hbelow⟩ := alongMappings_cons.mp h
    rw [List.map_cons, follow, List.foldlM_cons, step_eq_getKey hroot]
    exact Option.bind_congr (fun w hw => ih (hbelow w hw))

theorem lookup_ofNames (hn : ∀ n ∈ names, n ≠ "" ∧ '.' ∉ n.toList) (h : v.AlongMappings names) :
    v.lookup (Path.ofNames names) = names.foldlM getKey v := by
  cases names with
  | nil => rfl
  | cons n ns =>
    have hne : Path.ofNames (n :: ns) ≠ "" :=
      Path.ofNames_ne_empty (List.cons_ne_nil n ns) (fun m hm => (hn m hm).1)
    rw [lookup_of_ne_empty hne, Path.segments_ofNames (List.cons_ne_nil n ns) (fun m hm => (hn m hm).2),
      follow_of_alongMappings h]

/-- Two paths joined by a dot lead where the second leads from what the first finds, whatever characters
they are made of, as long as neither is empty. Names joined by dots lead where they lead one key after the
other, unless some value before the end is there and is no mapping. -/
theorem lookup_composes (v : Value) :
    (∀ p q : String, p ≠ "" → q ≠ "" →
      v.lookup (p ++ "." ++ q) = (v.lookup p).bind (fun w => w.lookup q)) ∧
    ∀ names : List String, (∀ n ∈ names, n ≠ "" ∧ '.' ∉ n.toList) → v.AlongMappings names →
      v.lookup (Path.ofNames names) = names.foldlM getKey v :=
  ⟨fun _ _ hp hq => lookup_append_dot hp hq v, fun _ hn h => lookup_ofNames hn h⟩

def listenerSample : Value :=
  .map [(.str "tls", .tagged "on" (.map [(.int 1, .tagged "all" (.seq [.str "a",
    .map [(.str "", .bool true)]]))]))]

theorem lookup_composes_listener :
    listenerSample.lookup "tls.1.+1." = some (.bool true) ∧
      (listenerSample.lookup "tls.1").bind (fun w => w.lookup "+1.") = some (.bool true) ∧
      listenerSample.AlongMappings ["tls", "1"] ∧
      listenerSample.lookup "tls.1" = ["tls", "1"].foldlM getKey listenerSample := by
  obtain ⟨hjoin, hnames⟩ := lookup_composes listenerSample
  have hpath : listenerSample.lookup "tls.1.+1." =
      (listenerSample.lookup "tls.1").bind (fun w => w.lookup "+1.") :=
    hjoin "tls.1" "+1." (by decide) (by decide)
  have hfound : (listenerSample.lookup "tls.1").bind (fun w => w.lookup "+1.") = some (.bool true) := rfl
  have halong : listenerSample.AlongMappings ["tls", "1"] := by
    refine alongMappings_cons.mpr ⟨rfl, fun w hw => ?_⟩
    cases hw
    exact alongMappings_cons.mpr ⟨rfl, fun u _ => alongMappings_nil u⟩
  exact ⟨hpath.trans hfound, hfound, halong, hnames ["tls", "1"] (by decide) halong⟩

example :
    let v : Value := .map [(.str "", .map [(.str "a", .int 1)]), (.str "a", .int 2)]
    (v.lookup "").bind (fun w => w.lookup "a") = some (.int 2) ∧
      v.lookup ("" ++ "." ++ "a") = some (.int 1) := ⟨rfl, rfl⟩

end ComponentDoc.Value
