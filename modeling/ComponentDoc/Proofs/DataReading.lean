import ComponentDoc.Proofs.ComponentForm
import ComponentDoc.Proofs.Reading

set_option autoImplicit false

namespace ComponentDoc.Yaml
open Decoder

namespace Octets

theorem toText_eq_none {bs : Octets} :
    toText bs = none ↔ ¬ (⟨bs.toArray⟩ : ByteArray).IsValidUTF8 := by
  unfold toText String.fromUTF8?
  split <;> simp_all

theorem toText_cons_bang {bs : Octets} (h : toText bs = none) : toText (bang :: bs) = none := by
  have hbytes : (⟨(bang :: bs).toArray⟩ : ByteArray) = ['!'].utf8Encode ++ ⟨bs.toArray⟩ := by
    have hmark : ['!'].utf8Encode = ⟨#[bang]⟩ := rfl
    apply ByteArray.ext
    simp [hmark]
  rw [toText_eq_none] at h ⊢
  rwa [hbytes, ByteArray.isValidUTF8_utf8Encode_singleton_append_iff]

theorem localText_eq_none {tag : Octets} (h : localName tag = none) : localText tag = none := by
  unfold localName at h
  unfold localText
  split at h
  · next hmark =>
    rw [if_pos hmark]
    match tag with
    | [] => exact h
    | [b] => exact h
    | b :: c :: cs =>
      cases Option.some.inj hmark
      match cs with
      | [] => exact h
      | d :: ds =>
        by_cases hc : c = bang
        · subst hc
          exact toText_cons_bang h
        · simpa [unmarked, hc] using h
  · next hmark => rw [if_neg hmark]

end Octets

namespace Node

mutual

def tags : Node → List Octets
  | .scalar p _ _ => p.tag.toList
  | .seq p items => p.tag.toList ++ itemsTags items
  | .map p entries => p.tag.toList ++ entriesTags entries
  | _ => []

def itemsTags : List Node → List Octets
  | [] => []
  | n :: ns => n.tags ++ itemsTags ns

def entriesTags : List (Node × Node) → List Octets
  | [] => []
  | (k, v) :: es => k.tags ++ v.tags ++ entriesTags es

end

theorem itemsTags_eq_flatMap (ns : List Node) : itemsTags ns = ns.flatMap tags := by
  induction ns with
  | nil => rfl
  | cons n ns ih => rw [itemsTags, ih, List.flatMap_cons]

theorem entriesTags_eq_flatMap (es : List (Node × Node)) :
    entriesTags es = es.flatMap (fun e => e.1.tags ++ e.2.tags) := by
  induction es with
  | nil => rfl
  | cons e es ih => rw [entriesTags, ih, List.flatMap_cons]

/-- All tags are the document's own, none is a schema's. -/
def LocalTags (n : Node) : Prop := ∀ t ∈ n.tags, t.head? = some Octets.bang

theorem localTags_seq {p : Properties} {ns : List Node} :
    LocalTags (.seq p ns) ↔
      (∀ t ∈ p.tag.toList, t.head? = some Octets.bang) ∧ ∀ n ∈ ns, n.LocalTags := by
  simp only [LocalTags, tags, itemsTags_eq_flatMap, List.forall_mem_append, List.forall_mem_flatMap]

theorem localTags_map {p : Properties} {es : List (Node × Node)} :
    LocalTags (.map p es) ↔ (∀ t ∈ p.tag.toList, t.head? = some Octets.bang) ∧
      ∀ e ∈ es, e.1.LocalTags ∧ e.2.LocalTags := by
  simp only [LocalTags, tags, entriesTags_eq_flatMap, List.forall_mem_append,
    List.forall_mem_flatMap]

theorem localTags_of_ownAnchor {p : Properties} {n : Node} (h : n.LocalTags) :
    ∀ target ∈ ownAnchor p n, target.2.LocalTags := by
  unfold ownAnchor
  split
  · simpa using h
  · simp

mutual

theorem LocalTags.anchored {n : Node} (h : n.LocalTags) :
    ∀ target ∈ n.anchored, target.2.LocalTags := by
  cases n with
  | scalar p st cs => exact localTags_of_ownAnchor h
  | seq p ns =>
    have hitems := localTags_itemsAnchored (localTags_seq.mp h).2
    exact List.forall_mem_append.mpr ⟨localTags_of_ownAnchor h, hitems⟩
  | map p es =>
    have hentries := localTags_entriesAnchored (localTags_map.mp h).2
    exact List.forall_mem_append.mpr ⟨localTags_of_ownAnchor h, hentries⟩
  | _ => simp [Node.anchored]

theorem localTags_itemsAnchored {ns : List Node} (h : ∀ n ∈ ns, n.LocalTags) :
    ∀ target ∈ itemsAnchored ns, target.2.LocalTags := by
  cases ns with
  | nil => simp [itemsAnchored]
  | cons n ns =>
    obtain ⟨hn, hns⟩ := List.forall_mem_cons.mp h
    exact List.forall_mem_append.mpr ⟨hn.anchored, localTags_itemsAnchored hns⟩

theorem localTags_entriesAnchored {es : List (Node × Node)}
    (h : ∀ e ∈ es, e.1.LocalTags ∧ e.2.LocalTags) :
    ∀ target ∈ entriesAnchored es, target.2.LocalTags := by
  match es with
  | [] => simp [entriesAnchored]
  | (k, v) :: es =>
    obtain ⟨hn, hns⟩ := List.forall_mem_cons.mp h
    rw [entriesAnchored, List.forall_mem_append, List.forall_mem_append]
    exact ⟨⟨hn.1.anchored, hn.2.anchored⟩, localTags_entriesAnchored hns⟩

end

end Node

def Source.LocalTags (src : Source) : Prop := ∀ target ∈ src.targets, target.2.LocalTags

theorem Source.localTags_of {root : Node} (h : root.LocalTags) : (Source.of root).LocalTags := by
  intro target ht
  exact h.anchored target (List.mem_reverse.mp ht)

/-- Where the reader of values finds a value, a reader of data finds certain data, after following the
same aliases. -/
def Reads {α : Type} (src : Source) (d : Nat) (read : Trail → Node → Decoder α) (v : Value) (x : α) :
    Prop :=
  ∀ place n j j', n.LocalTags → (readValue src d place n).run j = .ok (v, j') →
    (read place n).run j = .ok (x, j')

section Scalars

variable {src : Source} {d : Nat}

theorem localTags_of_follow (hs : src.LocalTags) {n m : Node} {j i : Nat} (hn : n.LocalTags)
    (h : (follow src n).run j = .ok (m, i)) : m.LocalTags := by
  unfold follow at h
  split at h
  · next a =>
    obtain ⟨k, i', -, h⟩ := run_bind_eq_ok.mp h
    split at h
    · simp at h
    · obtain ⟨_, i'', -, h⟩ := run_bind_eq_ok.mp h
      split at h
      · next target hlookup =>
        obtain ⟨rfl, -⟩ := run_pure_eq_ok.mp h
        obtain ⟨_, _, hsplit, -⟩ := List.lookup_eq_some_iff.mp hlookup
        exact hs (a, target) (by simp [hsplit])
      · simp at h
  · obtain ⟨rfl, rfl⟩ := run_pure_eq_ok.mp h
    exact hn

@[simp] theorem kind_withTag (tag : Option Octets) (v : Value) : (withTag tag v).kind = v.kind := by
  unfold withTag
  split <;> rfl

theorem withTag_of_not_tagged {tag : Option Octets} {v w : Value} (h : withTag tag v = w)
    (hw : ∀ t u, w ≠ .tagged t u) : v = w := by
  unfold withTag at h
  split at h
  · exact absurd h.symm (hw _ _)
  · exact h

theorem scalar_of_run {place : Trail} {n : Node} {v : Value} {j j' : Nat}
    (h : (readValue src d place n).run j = .ok (v, j')) (hseq : v.kind ≠ .sequence)
    (hmap : v.kind ≠ .mapping) (htag : ∀ t w, v ≠ .tagged t w) :
    ∃ p st cs r, (follow src n).run j = .ok (.scalar p st cs, j') ∧
      p.tag.bind Octets.localName = none ∧ Scalar.reading p.tag st cs = some r ∧
      r.held cs = some v := by
  obtain ⟨m, i, hfollow, hreads⟩ := readsAs_of_run h
  cases hreads with
  | scalar h =>
    obtain ⟨rfl, ⟨hname, r, hr, hheld⟩ | ⟨name, r, w, -, -, hw⟩⟩ := scalarValue_eq_ok h
    · exact ⟨_, _, _, r, hfollow, hname, hr, hheld⟩
    · exact absurd hw (htag name w)
  | seq h => simp [Value.kind] at hseq
  | map hd h => simp [Value.kind] at hmap

theorem text_of_run {place : Trail} {n : Node} {s : String} {j j' : Nat}
    (h : (readValue src d place n).run j = .ok (.str s, j')) :
    ∃ p st cs, (follow src n).run j = .ok (.scalar p st cs, j') ∧
      p.tag.bind Octets.localName = none ∧ String.ofList cs = s := by
  obtain ⟨p, st, cs, r, hfollow, hname, -, hheld⟩ := scalar_of_run h (by simp [Value.kind])
    (by simp [Value.kind]) (by simp)
  refine ⟨p, st, cs, hfollow, hname, ?_⟩
  cases r <;> simp_all [Scalar.held]

theorem reads_text (s : String) : Reads src d (readText src) (.str s) s := by
  intro place n j j' hn h
  obtain ⟨p, st, cs, hfollow, -, hs⟩ := text_of_run h
  rw [readText, run_bind_eq_ok]
  exact ⟨_, _, hfollow, run_pure_eq_ok.mpr ⟨hs, rfl⟩⟩

theorem readBool_of_ofPlain {cs : List Char} {b : Bool} (h : Scalar.ofPlain cs = .bool b) :
    Scalar.readBool cs = some b := by
  have hinteger : ∀ r ∈ (Scalar.readInteger cs).bind Scalar.ofInteger, r ≠ .bool b := by
    intro r hr
    obtain ⟨i, -, hi⟩ := Option.bind_eq_some_iff.mp hr
    unfold Scalar.ofInteger at hi
    split_ifs at hi <;> cases hi <;> simp
  unfold Scalar.ofPlain at h
  split at h
  · cases h
  · split at h
    · next hb => rwa [Scalar.bool.inj h] at hb
    · split at h
      · next r hr => exact absurd h (hinteger r hr)
      · split at h
        · cases h
        · split at h <;> cases h

theorem reading_bool {tag : Option Octets} {st : Style} {cs : List Char} {b : Bool}
    (htag : ∀ t ∈ tag.toList, t.head? = some Octets.bang)
    (h : Scalar.reading tag st cs = some (.bool b)) : st = .plain ∧ Scalar.readBool cs = some b := by
  cases tag with
  | none =>
    simp only [Scalar.reading, Option.some.injEq] at h
    split at h
    · next hst => exact ⟨hst, readBool_of_ofPlain h⟩
    · cases h
  | some t =>
    have hmark : t.head? = some Octets.bang := htag t (by simp)
    have hschema : ∀ u : Octets, u.head? ≠ some Octets.bang → t ≠ u := by
      intro u hu htu
      exact hu (htu ▸ hmark)
    simp only [Scalar.reading, if_neg (hschema boolTag (by decide +kernel)),
      if_neg (hschema intTag (by decide +kernel)), if_neg (hschema floatTag (by decide +kernel)),
      if_neg (hschema nullTag (by decide +kernel)), hmark, true_and] at h
    split at h
    · next hst => exact ⟨hst, readBool_of_ofPlain (Option.some.inj h)⟩
    · cases h

theorem reads_bool (hs : src.LocalTags) (b : Bool) : Reads src d (readBool src) (.bool b) b := by
  intro place n j j' hn h
  obtain ⟨p, st, cs, r, hfollow, -, hr, hheld⟩ := scalar_of_run h (by simp [Value.kind])
    (by simp [Value.kind]) (by simp)
  have hbool : r = .bool b := by cases r <;> simp_all [Scalar.held]
  rw [hbool] at hr
  obtain ⟨hplain, hb⟩ := reading_bool (localTags_of_follow hs hn hfollow) hr
  rw [readBool, run_bind_eq_ok]
  refine ⟨_, _, hfollow, ?_⟩
  simp only [mayBeBool, hplain, hb, beq_self_eq_true, Bool.true_or]
  exact run_pure b

theorem reads_interpolation (i : Interpolation) :
    Reads src d (readInterpolation src) (.str i.text) i := by
  intro place n j j' hn h
  obtain ⟨p, st, cs, hfollow, hname, hs⟩ := text_of_run h
  have htext : p.tag.bind Octets.localText = none := by
    cases htag : p.tag with
    | none => rfl
    | some t => exact Octets.localText_eq_none (by simpa [htag] using hname)
  rw [readInterpolation, run_bind_eq_ok]
  refine ⟨_, _, hfollow, ?_⟩
  simp only [htext, interpolationOf, hs, Interpolation.ofText_text]
  exact run_pure i

theorem reads_value (v : Value) : Reads src d (readValue src d) v v := fun _ _ _ _ _ h => h

end Scalars

section Collections

variable {src : Source} {d : Nat} {place : Trail} {n : Node} {j j' : Nat}

theorem kind_of_scalarValue {p : Properties} {st : Style} {cs : List Char} {v : Value}
    (h : (scalarValue place p st cs).run j = .ok (v, j')) :
    v.kind ≠ .sequence ∧ v.kind ≠ .mapping := by
  obtain ⟨-, ⟨-, r, -, hheld⟩ | ⟨name, r, w, -, hheld, rfl⟩⟩ := scalarValue_eq_ok h
  · cases r <;> cases hheld <;> simp [Value.kind]
  · cases r <;> cases hheld <;> simp [Value.kind]

theorem items_of_run {vs : List Value} (h : (readValue src d place n).run j = .ok (.seq vs, j')) :
    ∃ d' p ns i, d = d' + 1 ∧ (follow src n).run j = .ok (.seq p ns, i) ∧
      (eachItem (fun i => readValue src d' (.item place i)) 0 ns).run i = .ok (vs, j') := by
  obtain ⟨m, i, hfollow, hreads⟩ := readsAs_of_run h
  generalize hv : Value.seq vs = v at hreads
  cases hreads with
  | scalar h =>
    subst hv
    exact absurd rfl (kind_of_scalarValue h).1
  | seq h =>
    cases withTag_of_not_tagged hv.symm (by simp)
    exact ⟨_, _, _, i, rfl, hfollow, h⟩
  | map hd h =>
    have hkind := congrArg Value.kind hv
    simp [Value.kind] at hkind

theorem entries_of_run {es : List (Value × Value)}
    (h : (readValue src d place n).run j = .ok (.map es, j')) :
    ∃ d' p ns i, d = d' + 1 ∧ (follow src n).run j = .ok (.map p ns, i) ∧
      EntriesRead (readValue src d') place ns es i j' := by
  obtain ⟨m, i, hfollow, hreads⟩ := readsAs_of_run h
  generalize hv : Value.map es = v at hreads
  cases hreads with
  | scalar h =>
    subst hv
    exact absurd rfl (kind_of_scalarValue h).2
  | seq h =>
    have hkind := congrArg Value.kind hv
    simp [Value.kind] at hkind
  | map hd h =>
    cases withTag_of_not_tagged hv.symm (by simp)
    exact ⟨_, _, _, i, rfl, hfollow, h⟩

variable {α : Type}

theorem reads_items {read : Trail → Node → Decoder α} {form : α → Value} {xs : List α} {k : Nat}
    {ns : List Node} (hns : ∀ n ∈ ns, n.LocalTags) (hread : ∀ x ∈ xs, Reads src d read (form x) x)
    (h : (eachItem (fun i => readValue src d (.item place i)) k ns).run j =
      .ok (xs.map form, j')) :
    (eachItem (fun i => read (.item place i)) k ns).run j = .ok (xs, j') := by
  induction ns generalizing k j xs with
  | nil =>
    obtain ⟨hxs, rfl⟩ := run_pure_eq_ok.mp h
    rw [List.map_eq_nil_iff.mp hxs.symm]
    exact run_pure []
  | cons n ns ih =>
    obtain ⟨v, i, hv, h⟩ := run_bind_eq_ok.mp h
    obtain ⟨vs, i', hvs, h⟩ := run_bind_eq_ok.mp h
    obtain ⟨hxs, rfl⟩ := run_pure_eq_ok.mp h
    obtain ⟨x, rest, rfl, rfl, rfl⟩ := List.map_eq_cons_iff.mp hxs.symm
    obtain ⟨hn, hns⟩ := List.forall_mem_cons.mp hns
    obtain ⟨hx, hrest⟩ := List.forall_mem_cons.mp hread
    rw [eachItem, run_bind_eq_ok]
    refine ⟨x, i, hx _ _ _ _ hn hv, run_bind_eq_ok.mpr ⟨rest, i', ih hns hrest hvs, ?_⟩⟩
    exact run_pure (x :: rest)

theorem reads_list (hs : src.LocalTags) {read : Nat → Trail → Node → Decoder α} {form : α → Value}
    {xs : List α} (hread : ∀ d, ∀ x ∈ xs, Reads src d (read d) (form x) x) :
    Reads src d (fun place => readList src place (deeper d read)) (.seq (xs.map form)) xs := by
  intro place n j j' hn h
  obtain ⟨d, p, ns, i, rfl, hfollow, hitems⟩ := items_of_run h
  have hns := (Node.localTags_seq.mp (localTags_of_follow hs hn hfollow)).2
  unfold readList
  rw [run_bind_eq_ok]
  exact ⟨_, i, hfollow, reads_items hns (hread d) hitems⟩

end Collections

section Records

variable {src : Source} {d : Nat} {place : Trail} {j j' : Nat} {ρ : Type}

/-- Reading the members of a record where their values stand makes one record into another. -/
inductive Stores (src : Source) (d : Nat) (member : String → Option (Member ρ)) :
    List (String × Value) → ρ → ρ → Prop
  | nil (r : ρ) : Stores src d member [] r r
  | cons {name : String} {v : Value} {es : List (String × Value)} {m : Member ρ} {change : ρ → ρ}
      {r r' : ρ} (hmember : member name = some m) (hreads : Reads src d m v change)
      (hrest : Stores src d member es (change r) r') : Stores src d member ((name, v) :: es) r r'

variable {member : String → Option (Member ρ)}

theorem Stores.append {es fs : List (String × Value)} {r₁ r₂ r₃ : ρ}
    (he : Stores src d member es r₁ r₂) (hf : Stores src d member fs r₂ r₃) :
    Stores src d member (es ++ fs) r₁ r₃ := by
  induction he with
  | nil r => exact hf
  | cons hmember hreads hrest ih => exact .cons hmember hreads (ih hf)

theorem Reads.stored {α : Type} {v : Value} {read : Trail → Node → Decoder α} {x : α}
    (h : Reads src d read v x) (store : α → ρ → ρ) :
    Reads src d (storing read store) v (store x) := by
  intro place n j j' hn hrun
  unfold storing
  exact run_bind_eq_ok.mpr ⟨x, j', h place n j j' hn hrun, run_pure _⟩

theorem Stores.unless {α : Type} {condition : Bool} {name : String} {v : Value}
    {read : Trail → Node → Decoder α} {store : α → ρ → ρ} {x : α} {r r' : ρ}
    (hmember : member name = some (storing read store)) (hreads : Reads src d read v x)
    (hstore : store x r = r') (hskip : condition = true → r = r') :
    Stores src d member (Value.memberUnless condition name v) r r' := by
  cases condition with
  | true =>
    rw [hskip rfl]
    exact .nil r'
  | false => exact .cons hmember (hreads.stored store) (hstore ▸ .nil _)

theorem run_readMembers_cons {k n : Node} {ns : List (Node × Node)} {seen : List String}
    {p : Properties} {st : Style} {cs : List Char} {m : Member ρ} {change : ρ → ρ} {r : ρ}
    {j₁ j₂ j₃ : Nat} (hfollow : (follow src k).run j₁ = .ok (.scalar p st cs, j₂))
    (hmember : member (String.ofList cs) = some m) (hfresh : String.ofList cs ∉ seen)
    (hm : (m (place.beneath k) n).run j₂ = .ok (change, j₃)) :
    (readMembers src place member seen r ((k, n) :: ns)).run j₁ =
      (readMembers src place member (String.ofList cs :: seen) (change r) ns).run j₃ := by
  rw [readMembers, StateT.run_bind, hfollow, ok_bind]
  simp only [pure_bind, hmember, List.contains_iff_mem, if_neg hfresh]
  have hstep : ∀ inner, (m inner n).run j₂ = .ok (change, j₃) →
      (m inner n >>= fun change =>
          readMembers src place member (String.ofList cs :: seen) (change r) ns).run j₂ =
        (readMembers src place member (String.ofList cs :: seen) (change r) ns).run j₃ := by
    intro inner hinner
    rw [StateT.run_bind, hinner, ok_bind]
  cases k with
  | scalar p' st' cs' =>
    obtain ⟨heq, -⟩ := run_pure_eq_ok.mp hfollow
    cases heq
    exact hstep _ hm
  | _ => exact hstep _ hm

theorem run_readMembers {ns : List (Node × Node)} {es : List (String × Value)}
    {seen : List String} {r r' : ρ} (hns : ∀ n ∈ ns, n.1.LocalTags ∧ n.2.LocalTags)
    (hentries : EntriesRead (readValue src d) place ns (Value.textKeyed es) j j')
    (hstores : Stores src d member es r r') (hnodup : (es.map Prod.fst).Nodup)
    (hnew : ∀ e ∈ es, e.1 ∉ seen) :
    (readMembers src place member seen r ns).run j =
      .ok (((es.map Prod.fst).reverse ++ seen, r'), j') := by
  induction hstores generalizing ns seen j with
  | nil r =>
    cases hentries with
    | nil j => exact run_pure (seen, r)
  | @cons name v es m change r r' hmember hreads hrest ih =>
    cases hentries with
    | @cons k n ns _ _ _ _ j₂ j₃ _ hkey hvalue hentries =>
      obtain ⟨⟨hk, hn⟩, hns⟩ := List.forall_mem_cons.mp hns
      obtain ⟨hname, hnodup⟩ := List.nodup_cons.mp hnodup
      obtain ⟨hfresh, hnew⟩ := List.forall_mem_cons.mp hnew
      obtain ⟨p, st, cs, hfollow, -, htext⟩ := text_of_run hkey
      have hlater : ∀ e ∈ es, e.1 ∉ name :: seen := by
        intro e he hmem
        rcases List.mem_cons.mp hmem with heq | hmem
        · exact hname (List.mem_map.mpr ⟨e, he, heq⟩)
        · exact hnew e he hmem
      have hrest := ih hns hentries hnodup hlater
      subst htext
      rw [run_readMembers_cons hfollow hmember hfresh (hreads _ _ _ _ hn hvalue), hrest]
      simp

theorem run_requireAll {seen required : List String} (h : ∀ name ∈ required, name ∈ seen) :
    (requireAll place seen required).run j = .ok ((), j) := by
  induction required with
  | nil => exact run_pure ()
  | cons name names ih =>
    obtain ⟨hname, hnames⟩ := List.forall_mem_cons.mp h
    rw [requireAll, if_pos (List.contains_iff_mem.mpr hname)]
    exact ih hnames

/-- A record is read where a mapping of its members stands that names what is required. -/
theorem reads_record (hs : src.LocalTags) {member : Nat → String → Option (Member ρ)}
    {wanted : Wanted} {required : List String} {es : List (String × Value)} {start r : ρ}
    (hstores : ∀ d, Stores src d (member d) es start r) (hnodup : (es.map Prod.fst).Nodup)
    (hrequired : ∀ name ∈ required, name ∈ es.map Prod.fst) :
    Reads src d (fun place => readRecord src place wanted (deeper d member) required start)
      (.map (Value.textKeyed es)) r := by
  intro place n j j' hn h
  obtain ⟨d, p, ns, i, rfl, hfollow, hentries⟩ := entries_of_run h
  have hns := (Node.localTags_map.mp (localTags_of_follow hs hn hfollow)).2
  have hmembers := run_readMembers hns hentries (hstores d) hnodup (fun _ _ => List.not_mem_nil)
  unfold readRecord
  rw [run_bind_eq_ok]
  refine ⟨_, i, hfollow, run_bind_eq_ok.mpr ⟨_, j', hmembers, ?_⟩⟩
  refine run_bind_eq_ok.mpr ⟨(), j', run_requireAll (by simpa using hrequired), ?_⟩
  exact run_pure r

end Records

end ComponentDoc.Yaml
