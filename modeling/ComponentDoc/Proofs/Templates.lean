import ComponentDoc.Template.Eval

/-!
Templates as data, and what they write. Whether two templates are identical can be computed, so what a
source reads as can be checked by evaluation. Templates that assign nothing write texts that are put
together node by node; a loop writes the texts of its items one after the other.
-/

set_option autoImplicit false

namespace ComponentDoc.Template

def Datum.identical : Datum → Datum → Bool
  | .text s, .text t => s == t
  | .int i, .int j => i == j
  | _, _ => false

mutual

def Expr.identical : Expr → Expr → Bool
  | .literal d, .literal d' => d.identical d'
  | .variable n is, .variable m js => n == m && Expr.identicalAll is js
  | _, _ => false

def Expr.identicalAll : List Expr → List Expr → Bool
  | [], [] => true
  | e :: es, e' :: es' => e.identical e' && Expr.identicalAll es es'
  | _, _ => false

end

def Output.identical (o p : Output) : Bool :=
  o.start.identical p.start && o.filters.isEmpty && p.filters.isEmpty

def Condition.identical : Condition → Condition → Bool
  | .holds e, .holds e' => e.identical e'
  | .compares c l r, .compares c' l' r' => c == c' && l.identical l' && r.identical r'
  | .both a b, .both a' b' => a.identical a' && b.identical b'
  | .either a b, .either a' b' => a.identical a' && b.identical b'
  | _, _ => false

mutual

def Node.identical : Node → Node → Bool
  | .text s, .text t => s == t
  | .output o, .output p => o.identical p
  | .assign n o, .assign m p => n == m && o.identical p
  | .choose c w yes no, .choose c' w' yes' no' =>
    c.identical c' && w == w' && Node.identicalAll yes yes' && Node.identicalAll no no'
  | .loop n d body no, .loop n' d' body' no' =>
    n == n' && d.identical d' && Node.identicalAll body body' && Node.identicalAll no no'
  | _, _ => false

def Node.identicalAll : List Node → List Node → Bool
  | [], [] => true
  | n :: ns, m :: ms => n.identical m && Node.identicalAll ns ms
  | _, _ => false

end

theorem Datum.eq_of_identical {d d' : Datum} (h : d.identical d' = true) : d = d' := by
  cases d <;> cases d' <;> simp only [identical, Bool.false_eq_true, beq_iff_eq] at h
  case text.text => rw [h]
  case int.int => rw [h]

mutual

theorem Expr.eq_of_identical {e e' : Expr} (h : e.identical e' = true) : e = e' := by
  match e, e' with
  | .literal d, .literal d' =>
    rw [Expr.identical] at h
    rw [Datum.eq_of_identical h]
  | .variable n is, .variable m js =>
    simp only [Expr.identical, Bool.and_eq_true, beq_iff_eq] at h
    rw [h.1, Expr.eq_of_identicalAll h.2]
  | .literal d, .variable m js => simp [Expr.identical] at h
  | .variable n is, .literal d => simp [Expr.identical] at h

theorem Expr.eq_of_identicalAll {es es' : List Expr} (h : Expr.identicalAll es es' = true) :
    es = es' := by
  cases es <;> cases es' <;>
    simp only [Expr.identicalAll, Bool.false_eq_true, Bool.and_eq_true] at h
  case nil.nil => rfl
  case cons.cons => rw [Expr.eq_of_identical h.1, Expr.eq_of_identicalAll h.2]

end

theorem Output.eq_of_identical {o p : Output} (h : o.identical p = true) : o = p := by
  obtain ⟨e, fs⟩ := o
  obtain ⟨e', fs'⟩ := p
  simp only [Output.identical, Bool.and_eq_true, List.isEmpty_iff] at h
  obtain ⟨⟨he, rfl⟩, rfl⟩ := h
  rw [Expr.eq_of_identical he]

theorem Condition.eq_of_identical {c c' : Condition} (h : c.identical c' = true) : c = c' := by
  induction c generalizing c' <;> cases c' <;>
    simp only [Condition.identical, Bool.false_eq_true, Bool.and_eq_true, beq_iff_eq] at h
  case holds.holds => rw [Expr.eq_of_identical h]
  case compares.compares => rw [h.1.1, Expr.eq_of_identical h.1.2, Expr.eq_of_identical h.2]
  case both.both iha ihb _ _ => rw [iha h.1, ihb h.2]
  case either.either iha ihb _ _ => rw [iha h.1, ihb h.2]

mutual

theorem Node.eq_of_identical {n m : Node} (h : n.identical m = true) : n = m := by
  cases n <;> cases m <;>
    simp only [Node.identical, Bool.false_eq_true, Bool.and_eq_true, beq_iff_eq] at h
  case text.text => rw [h]
  case output.output => rw [Output.eq_of_identical h]
  case assign.assign => rw [h.1, Output.eq_of_identical h.2]
  case choose.choose =>
    rw [Condition.eq_of_identical h.1.1.1, h.1.1.2, Node.eq_of_identicalAll h.1.2,
      Node.eq_of_identicalAll h.2]
  case loop.loop =>
    rw [h.1.1.1, Expr.eq_of_identical h.1.1.2, Node.eq_of_identicalAll h.1.2,
      Node.eq_of_identicalAll h.2]

theorem Node.eq_of_identicalAll {ns ms : List Node} (h : Node.identicalAll ns ms = true) :
    ns = ms := by
  cases ns <;> cases ms <;>
    simp only [Node.identicalAll, Bool.false_eq_true, Bool.and_eq_true] at h
  case nil.nil => rfl
  case cons.cons => rw [Node.eq_of_identical h.1, Node.eq_of_identicalAll h.2]

end

def Expr.named (name : String) (members : List String) : Expr :=
  .variable name (members.map (fun m => .literal (.text m.toList)))

theorem Datum.index_record (members : List (String × Datum)) (key : String) :
    (Datum.record members).index (.text key.toList) =
      (members.lookup key).or (if key = "size" then some (.int members.length) else none) := by
  have hsize : key.toList = Datum.sizeWord ↔ key = "size" := String.toList_inj
  cases h : members.lookup key <;> simp [index, isScalar, Datum.render, hsize, h]

theorem Datum.index_size (items : List Datum) :
    (Datum.list items).index (.text "size".toList) = some (.int items.length) := by
  have hposition : Datum.position (.text "size".toList) = none := by decide
  have hfirst : "size".toList ≠ "first".toList := by decide
  have hlast : "size".toList ≠ "last".toList := by decide
  rw [index, if_neg (by decide)]
  split
  next i hi => exact absurd (hposition.symm.trans hi) (by simp)
  next => exact (if_neg hfirst).trans ((if_neg hlast).trans (if_pos rfl))

theorem Expr.eval_named (find : String → Option Datum) (name : String)
    (members : List String) :
    (Expr.named name members).eval find =
      (find name).bind (fun d => members.foldlM (fun d m => d.index (.text m.toList)) d) := by
  have hindices : ∀ d, Expr.evalIndices find d (members.map (fun m => .literal (.text m.toList))) =
      members.foldlM (fun d m => d.index (.text m.toList)) d := by
    induction members with
    | nil => exact fun d => rfl
    | cons m ms ih =>
      intro d
      rw [List.map_cons, Expr.evalIndices, Expr.eval, List.foldlM_cons]
      simp only [ih]
      rfl
  rw [named, Expr.eval]
  simp only [hindices]
  rfl

theorem Expr.eval_variable (find : String → Option Datum) (name : String) :
    (Expr.named name []).eval find = find name := by
  cases h : find name <;> simp [eval_named, h]

theorem Expr.eval_member {find : String → Option Datum} {name member : String}
    {members : List (String × Datum)} {d : Datum} (h : find name = some (.record members))
    (hd : members.lookup member = some d) : (Expr.named name [member]).eval find = some d := by
  rw [eval_named, h, Option.bind_some, List.foldlM_cons, Datum.index_record, hd]
  rfl

namespace Datum

theorem compareBy_equal_text (s t : String) :
    compareBy .equal (.text s.toList) (.text t.toList) = some (s == t) := by
  have hbeq : (s.toList == t.toList) = (s == t) := by
    rw [Bool.eq_iff_iff, beq_iff_eq, beq_iff_eq, String.toList_inj]
  exact congrArg some hbeq

theorem compareBy_unequal_empty (s : String) :
    compareBy .unequal (.text s.toList) (.text []) = some (s != "") := by
  have hequal := compareBy_equal_text s ""
  rw [compareBy, Option.some.injEq] at hequal
  rw [compareBy, bne, ← hequal]
  rfl

theorem compareBy_greater_length (items : List Datum) :
    compareBy .greater (.int items.length) (.int 0) = some (!items.isEmpty) := by
  cases items with
  | nil => rfl
  | cons d ds =>
    have hpos : compare ((ds.length : Int) + 1) 0 = .gt := by
      rw [Int.compare_eq_gt]
      omega
    simp [compareBy, order, orderScalars, hpos]

end Datum

/-- The node writes a text and assigns nothing. -/
def Node.Writes (f : Frame) (n : Node) (s : String) : Prop :=
  Node.render f [] n = some (s.toList, [])

def Writes (f : Frame) (ns : List Node) (s : String) : Prop :=
  Node.renderAll f [] ns = some (s.toList, [])

theorem Writes.of_eq {f : Frame} {ns : List Node} {s t : String} (h : Writes f ns s) (hs : s = t) :
    Writes f ns t := hs ▸ h

theorem Writes.nil (f : Frame) : Writes f [] "" := rfl

theorem Writes.cons {f : Frame} {n : Node} {ns : List Node} {s t : String} (hn : n.Writes f s)
    (hns : Writes f ns t) : Writes f (n :: ns) (s ++ t) := by
  rw [Writes, Node.renderAll, hn, String.toList_append]
  simp only [Option.bind_eq_bind, Option.bind_some]
  rw [hns]
  rfl

theorem Writes.single {f : Frame} {n : Node} {s : String} (hn : n.Writes f s) : Writes f [n] s :=
  (Writes.cons hn (.nil f)).of_eq String.append_empty

namespace Node

theorem writes_text (f : Frame) (s : String) : (text s.toList).Writes f s := rfl

theorem writes_output {f : Frame} {e : Expr} {s : String}
    (he : e.eval (f.find []) = some (.text s.toList)) : (output ⟨e, []⟩).Writes f s := by
  rw [Writes, Node.render, Output.eval, he]
  rfl

theorem writes_choose {f : Frame} {c : Condition} {wanted b : Bool} {yes no : List Node} {s : String}
    (hc : c.eval (f.find []) = some b) (hs : Template.Writes f (if b = wanted then yes else no) s) :
    (choose c wanted yes no).Writes f s := by
  rw [Writes, Node.render, hc]
  simp only [Option.bind_eq_bind, Option.bind_some, beq_iff_eq]
  split
  · next h => rwa [if_pos h] at hs
  · next h => rwa [if_neg h] at hs

end Node

theorem eachItem_eq {α : Type} {body : Nat → Datum → Scope → Option (List Char × Scope)}
    {datum : α → Datum} {written : Nat → α → String} {as : List α} {i : Nat}
    (h : ∀ j a, body j (datum a) [] = some ((written j a).toList, [])) :
    eachItem body i (as.map datum) [] =
      some ((String.join (as.mapIdx (fun j a => written (i + j) a))).toList, []) := by
  induction as generalizing i with
  | nil => rfl
  | cons a as ih =>
    have hshift : (fun j => written (i + (j + 1))) = fun j => written (i + 1 + j) := by
      funext j
      rw [Nat.add_right_comm, Nat.add_assoc]
    rw [List.map_cons, eachItem, h, List.mapIdx_cons, hshift]
    simp only [Option.bind_eq_bind, Option.bind_some]
    rw [ih, String.join_cons, String.toList_append]
    rfl

theorem join_mapIdx_separated {α : Type} (sep : String) (item : α → String) (as : List α) :
    String.join (as.mapIdx (fun i a => if i = 0 then item a else sep ++ item a)) =
      sep.intercalate (as.map item) := by
  have hrest : ∀ (a : α) (as : List α),
      item a ++ String.join (as.map (fun a => sep ++ item a)) =
        sep.intercalate ((a :: as).map item) := by
    intro a as
    induction as generalizing a with
    | nil => simp
    | cons b bs ih =>
      rw [List.map_cons, String.join_cons, List.map_cons, List.map_cons,
        String.intercalate_cons_cons, ← List.map_cons, ← ih, String.append_assoc, String.append_assoc]
  cases as with
  | nil => rfl
  | cons a as =>
    have htail : as.mapIdx (fun i a => if i + 1 = 0 then item a else sep ++ item a) =
        as.map (fun a => sep ++ item a) := List.ext_getElem (by simp) (by simp)
    rw [List.mapIdx_cons, String.join_cons, htail, if_pos rfl, hrest]

/-- A loop over a list, with what its body writes for each item. -/
theorem Node.writes_loop {α : Type} {f : Frame} {name : String} {domain : Expr} {body : List Node}
    {as : List α} {datum : α → Datum} {written : Nat → α → String}
    (hd : domain.eval (f.find []) = some (.list (as.map datum)))
    (hbody : ∀ i a, Template.Writes
      { f with loops := [("forloop", loopRecord (as.map datum).length i
        ((f.loops.lookup "forloop").getD .nil)), (name, datum a)] ++ f.loops } body (written i a)) :
    (loop name domain body []).Writes f (String.join (as.mapIdx written)) := by
  rw [Writes, Node.render, hd]
  simp only [Option.bind_eq_bind, Option.bind_some, items]
  split
  · next h =>
    have has : as = [] := by simpa using h
    rw [has]
    rfl
  · rw [eachItem_eq hbody]
    simp only [Nat.zero_add]

end ComponentDoc.Template
