import ComponentDoc.Proofs.Mappings

set_option autoImplicit false

namespace ComponentDoc.Yaml
open Decoder

section Runs

variable {α β : Type} {j j' : Nat}

theorem run_bind_eq_ok {x : Decoder α} {f : α → Decoder β} {b : β} :
    (x >>= f).run j = .ok (b, j') ↔
      ∃ a i, x.run j = .ok (a, i) ∧ (f a).run i = .ok (b, j') := by
  rw [StateT.run_bind, bind_eq_ok]
  constructor
  · rintro ⟨⟨a, i⟩, hx, hf⟩
    exact ⟨a, i, hx, hf⟩
  · rintro ⟨a, i, hx, hf⟩
    exact ⟨(a, i), hx, hf⟩

theorem run_pure (a : α) : (pure a : Decoder α).run j = .ok (a, j) := rfl

theorem run_pure_eq_ok {a b : α} : (pure a : Decoder α).run j = .ok (b, j') ↔ a = b ∧ j = j' := by
  rw [run_pure, Except.ok.injEq, Prod.mk.injEq]

@[simp] theorem run_malformed : (malformed : Decoder α).run j = .error .malformed := rfl

@[simp] theorem run_misfit (place : Trail) (problem : Problem) :
    (misfit place problem : Decoder α).run j = .error (.misfit place problem) := rfl

end Runs

def Trail.beneath (place : Trail) : Node → Trail
  | .scalar _ _ cs => .key place (String.ofList cs)
  | _ => .unknown place

inductive EntriesRead (read : Trail → Node → Decoder Value) (place : Trail) :
    List (Node × Node) → List (Value × Value) → Nat → Nat → Prop
  | nil (j : Nat) : EntriesRead read place [] [] j j
  | cons {k n : Node} {ns : List (Node × Node)} {key v : Value} {es : List (Value × Value)}
      {j₁ j₂ j₃ j₄ : Nat} (hkey : (read place k).run j₁ = .ok (key, j₂))
      (hvalue : (read (place.beneath k) n).run j₂ = .ok (v, j₃))
      (hrest : EntriesRead read place ns es j₃ j₄) :
      EntriesRead read place ((k, n) :: ns) ((key, v) :: es) j₁ j₄

/-- What the value of a node is made from, by the kind of the node: a scalar's reading, or parts that
are read one level less deep. -/
inductive ReadsAs (src : Source) (place : Trail) : Nat → Node → Value → Nat → Nat → Prop
  | scalar {d : Nat} {p : Properties} {st : Style} {cs : List Char} {v : Value} {j j' : Nat}
      (h : (scalarValue place p st cs).run j = .ok (v, j')) :
      ReadsAs src place d (.scalar p st cs) v j j'
  | seq {d : Nat} {p : Properties} {ns : List Node} {vs : List Value} {j j' : Nat}
      (h : (eachItem (fun i => readValue src d (.item place i)) 0 ns).run j = .ok (vs, j')) :
      ReadsAs src place (d + 1) (.seq p ns) (withTag p.tag (.seq vs)) j j'
  | map {d : Nat} {p : Properties} {ns : List (Node × Node)} {es : List (Value × Value)} {j j' : Nat}
      (hd : Value.DistinctKeys es) (h : EntriesRead (readValue src d) place ns es j j') :
      ReadsAs src place (d + 1) (.map p ns) (withTag p.tag (.map es)) j j'

section

variable {src : Source} {place : Trail} {j j' : Nat}

theorem readEntries_cons (read : Trail → Node → Decoder Value) (entries : List (Value × Value))
    (k n : Node) (ns : List (Node × Node)) :
    readEntries read place entries ((k, n) :: ns) = (do
      let key ← read place k
      if entries.any (fun e => e.1.same key) then malformed
      else
        let v ← read (place.beneath k) n
        readEntries read place (entries ++ [(key, v)]) ns) := by
  cases k <;> rfl

theorem entriesRead_of_run {read : Trail → Node → Decoder Value}
    {entries out : List (Value × Value)} {ns : List (Node × Node)}
    (hd : Value.DistinctKeys entries)
    (h : (readEntries read place entries ns).run j = .ok (out, j')) :
    ∃ es, out = entries ++ es ∧ Value.DistinctKeys out ∧ EntriesRead read place ns es j j' := by
  induction ns generalizing entries j with
  | nil =>
    obtain ⟨rfl, rfl⟩ := run_pure_eq_ok.mp h
    exact ⟨[], by simp, hd, .nil j⟩
  | cons n ns ih =>
    obtain ⟨k, n⟩ := n
    rw [readEntries_cons, run_bind_eq_ok] at h
    obtain ⟨key, i, hkey, h⟩ := h
    split at h
    · simp at h
    · next hnew =>
      obtain ⟨v, i', hvalue, h⟩ := run_bind_eq_ok.mp h
      have hnext : Value.DistinctKeys (entries ++ [(key, v)]) := by
        simp only [Bool.not_eq_true, List.any_eq_false] at hnew
        refine List.pairwise_append.mpr ⟨hd, List.pairwise_singleton _ _, ?_⟩
        simpa using hnew
      obtain ⟨es, hout, hdistinct, hrest⟩ := ih hnext h
      exact ⟨(key, v) :: es, by simp [hout], hdistinct, .cons hkey hvalue hrest⟩

theorem readsAs_of_run {d : Nat} {n : Node} {v : Value}
    (h : (readValue src d place n).run j = .ok (v, j')) :
    ∃ m i, (follow src n).run j = .ok (m, i) ∧ ReadsAs src place d m v i j' := by
  cases d with
  | zero =>
    rw [readValue, run_bind_eq_ok] at h
    obtain ⟨m, i, hfollow, h⟩ := h
    refine ⟨m, i, hfollow, ?_⟩
    cases m with
    | scalar p st cs => exact .scalar h
    | _ => simp at h
  | succ d =>
    rw [readValue, run_bind_eq_ok] at h
    obtain ⟨m, i, hfollow, h⟩ := h
    refine ⟨m, i, hfollow, ?_⟩
    cases m with
    | scalar p st cs => exact .scalar h
    | seq p ns =>
      obtain ⟨vs, i', hitems, h⟩ := run_bind_eq_ok.mp h
      obtain ⟨rfl, rfl⟩ := run_pure_eq_ok.mp h
      exact .seq hitems
    | map p ns =>
      obtain ⟨es, i', hentries, h⟩ := run_bind_eq_ok.mp h
      obtain ⟨rfl, rfl⟩ := run_pure_eq_ok.mp h
      obtain ⟨es', hout, hd, hread⟩ := entriesRead_of_run List.Pairwise.nil hentries
      rw [List.nil_append] at hout
      subst hout
      exact .map hd hread
    | _ => simp at h

def Scalar.held (cs : List Char) : Scalar → Option Value
  | .null => some .null
  | .bool b => some (.bool b)
  | .int i => some (.int i)
  | .tooLarge _ => none
  | .float x => some (.float x)
  | .text => some (.str (String.ofList cs))

theorem Scalar.value_eq_ok {cs : List Char} {r : Scalar} {v : Value} :
    (r.value place cs).run j = .ok (v, j') ↔ r.held cs = some v ∧ j = j' := by
  cases r <;> simp [value, held, run_pure_eq_ok, -StateT.run_pure]

theorem scalarValue_eq_ok {p : Properties} {st : Style} {cs : List Char} {v : Value}
    (h : (scalarValue place p st cs).run j = .ok (v, j')) :
    j = j' ∧ ((p.tag.bind Octets.localName = none ∧
        ∃ r, Scalar.reading p.tag st cs = some r ∧ r.held cs = some v) ∨
      ∃ name r w, p.tag.bind Octets.localName = some name ∧ Scalar.held cs r = some w ∧
        v = .tagged name w) := by
  unfold scalarValue at h
  split at h
  · next name hname =>
    obtain ⟨w, i, hw, h⟩ := run_bind_eq_ok.mp h
    obtain ⟨hheld, rfl⟩ := Scalar.value_eq_ok.mp hw
    obtain ⟨rfl, rfl⟩ := run_pure_eq_ok.mp h
    exact ⟨rfl, .inr ⟨name, _, w, hname, hheld, rfl⟩⟩
  · next hname =>
    split at h
    · next r hr =>
      obtain ⟨hheld, rfl⟩ := Scalar.value_eq_ok.mp h
      exact ⟨rfl, .inl ⟨hname, r, hr, hheld⟩⟩
    · simp at h

theorem eachItem_forall {α : Type} {P : α → Prop} {read : Nat → Node → Decoder α} {k : Nat}
    {ns : List Node} {xs : List α}
    (hread : ∀ i n j j' x, (read i n).run j = .ok (x, j') → P x)
    (h : (eachItem read k ns).run j = .ok (xs, j')) : ∀ x ∈ xs, P x := by
  induction ns generalizing k j xs with
  | nil =>
    obtain ⟨rfl, rfl⟩ := run_pure_eq_ok.mp h
    simp
  | cons n ns ih =>
    obtain ⟨x, i, hx, h⟩ := run_bind_eq_ok.mp h
    obtain ⟨rest, i', hrest, h⟩ := run_bind_eq_ok.mp h
    obtain ⟨rfl, rfl⟩ := run_pure_eq_ok.mp h
    exact List.forall_mem_cons.mpr ⟨hread _ _ _ _ _ hx, ih hrest⟩

theorem EntriesRead.forall_value {P : Value → Prop} {read : Trail → Node → Decoder Value}
    {ns : List (Node × Node)} {es : List (Value × Value)}
    (hread : ∀ place n j j' v, (read place n).run j = .ok (v, j') → P v)
    (h : EntriesRead read place ns es j j') : ∀ e ∈ es, P e.2 := by
  induction h with
  | nil j => simp
  | cons hkey hvalue hrest ih => exact List.forall_mem_cons.mpr ⟨hread _ _ _ _ _ hvalue, ih⟩

theorem everywhere_withTag {P : List (Value × Value) → Prop} {tag : Option Octets} {v : Value} :
    (withTag tag v).Everywhere P ↔ v.Everywhere P := by
  unfold withTag
  split
  · exact Value.everywhere_tagged
  · exact Iff.rfl

/-- No mapping in a value that has been read has a key twice. -/
theorem distinctKeys_of_run {d : Nat} {n : Node} {v : Value}
    (h : (readValue src d place n).run j = .ok (v, j')) : v.Everywhere Value.DistinctKeys := by
  induction d using Nat.strongRecOn generalizing place n v j j' with
  | ind d ih =>
    obtain ⟨m, i, -, hreads⟩ := readsAs_of_run h
    cases hreads with
    | scalar h =>
      obtain ⟨-, ⟨-, r, -, hheld⟩ | ⟨name, r, w, -, hheld, rfl⟩⟩ := scalarValue_eq_ok h
      · cases r <;> cases hheld <;> simp [Value.Everywhere, Value.mappings]
      · cases r <;> cases hheld <;> simp [Value.Everywhere, Value.mappings]
    | seq h =>
      rw [everywhere_withTag, Value.everywhere_seq]
      exact eachItem_forall (fun _ _ _ _ _ h => ih _ (Nat.lt_succ_self _) h) h
    | map hd h =>
      rw [everywhere_withTag, Value.everywhere_map]
      exact ⟨hd, h.forall_value (fun _ _ _ _ _ h => ih _ (Nat.lt_succ_self _) h)⟩

end

def treeOf (text : String) : Node := (Document.read text.toList).root.getD emptyNode

theorem decode_eq_ok {α : Type} {read : Source → Trail → Node → Decoder α} {text : String} {x : α} :
    decode read text = .ok x ↔
      (∃ j, (read (Source.of (treeOf text)) .root (treeOf text)).run 0 = .ok (x, j)) ∧
        (Document.read text.toList).ended = true := by
  simp only [decode, treeOf]
  cases (read _ _ _).run 0 with
  | error e => simp
  | ok r => cases (Document.read text.toList).ended <;> simp [Prod.ext_iff]

theorem distinctKeys_of_parseValue {text : String} {v : Value} (h : parseValue text = .ok v) :
    v.Everywhere Value.DistinctKeys := by
  obtain ⟨⟨j, hrun⟩, -⟩ := decode_eq_ok.mp h
  exact distinctKeys_of_run hrun

end ComponentDoc.Yaml
