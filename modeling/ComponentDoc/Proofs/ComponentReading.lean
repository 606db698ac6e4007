import ComponentDoc.Proofs.DataReading
import ComponentDoc.Proofs.TwoTiers

set_option autoImplicit false

namespace ComponentDoc

open Value

namespace Yaml
open Decoder

theorem readField_eq (src : Source) (depth : Nat) (place : Trail) :
    readField src depth place = readRecord src place .field
      (deeper depth (fun d => fieldMember src d (readFields src d))) ["name"] emptyField := by
  cases depth <;> rfl

theorem readFields_eq (src : Source) (depth : Nat) (place : Trail) :
    readFields src depth place = readList src place (deeper depth (readField src)) := by
  cases depth <;> rfl

/-- Reading some members of a field makes one field into another. -/
abbrev StoresField (src : Source) (depth : Nat) : List (String × Value) → Field → Field → Prop :=
  Stores src depth (fieldMember src depth (readFields src depth))

theorem stores_field {src : Source} (hs : src.LocalTags) {depth : Nat} (d : Declaration)
    {gs : List Field}
    (hchildren : Reads src depth (readFields src depth) (.seq (gs.map Field.toValue)) gs) :
    StoresField src depth (d.members gs) emptyField ⟨d, gs⟩ := by
  have hname : StoresField src depth [("name", .str d.name)] emptyField ⟨{ name := d.name }, []⟩ :=
    .cons rfl ((reads_text d.name).stored _) (.nil _)
  have htype : StoresField src depth
      (memberUnless (d.type == "") "type" (.str d.type)) ⟨{ name := d.name }, []⟩
      ⟨{ name := d.name, type := d.type }, []⟩ := by
    refine .unless rfl (reads_text d.type) rfl ?_
    intro h
    rw [beq_iff_eq.mp h]
  have hscalars : StoresField src depth
      [("description", .str d.description), ("advanced", .bool d.advanced),
        ("deprecated", .bool d.deprecated), ("interpolation", .str d.interpolation.text)]
      ⟨{ name := d.name, type := d.type }, []⟩ ⟨{ d with examples := [], options := [] }, []⟩ :=
    .cons rfl ((reads_text d.description).stored _)
      (.cons rfl ((reads_bool hs d.advanced).stored _)
        (.cons rfl ((reads_bool hs d.deprecated).stored _)
          (.cons rfl ((reads_interpolation d.interpolation).stored _) (.nil _))))
  have hexamples : StoresField src depth
      (memberUnless d.examples.isEmpty "examples" (.seq d.examples))
      ⟨{ d with examples := [], options := [] }, []⟩ ⟨{ d with options := [] }, []⟩ := by
    have hlist : Reads src depth (fun place => readList src place (deeper depth (readValue src)))
        (.seq (d.examples.map id)) d.examples := reads_list hs (fun _ v _ => reads_value v)
    rw [List.map_id] at hlist
    refine .unless rfl hlist rfl ?_
    intro h
    rw [List.isEmpty_iff] at h
    rw [← h]
  have hoptions : StoresField src depth
      (memberUnless d.options.isEmpty "options" (.seq (d.options.map .str)))
      ⟨{ d with options := [] }, []⟩ ⟨d, []⟩ := by
    refine .unless rfl (reads_list hs (fun _ s _ => reads_text s)) rfl ?_
    intro h
    rw [List.isEmpty_iff] at h
    rw [← h]
  have hbelow : StoresField src depth
      (memberUnless gs.isEmpty "children" (.seq (gs.map Field.toValue))) ⟨d, []⟩ ⟨d, gs⟩ := by
    refine .unless rfl hchildren rfl ?_
    intro h
    rw [List.isEmpty_iff.mp h]
  exact (((((hname.append htype).append hscalars).append hexamples).append hoptions).append hbelow)

theorem reads_fields {src : Source} (hs : src.LocalTags) (fs : List Field) (depth : Nat) :
    Reads src depth (readFields src depth) (.seq (fs.map Field.toValue)) fs := by
  induction fs using Field.level_induction generalizing depth with
  | level fs ih =>
    have hfield : ∀ depth, ∀ f ∈ fs, Reads src depth (readField src depth) f.toValue f := by
      intro depth f hf
      obtain ⟨d, gs⟩ := f
      rw [Field.toValue_node, funext (readField_eq src depth)]
      refine reads_record hs ?_ (d.members_names_nodup gs) ?_
      · intro depth
        exact stores_field hs d (ih d gs hf depth)
      · simp [Declaration.members]
    rw [funext (readFields_eq src depth)]
    exact reads_list hs hfield

theorem reads_component {src : Source} (hs : src.LocalTags) (c : Component) (depth : Nat) :
    Reads src depth (readComponent src depth) c.toValue c := by
  rw [Component.toValue_eq]
  refine reads_record hs ?_ c.members_names_nodup (by simp [Component.members])
  intro depth
  exact .cons rfl ((reads_text c.name).stored _)
    (.cons rfl ((reads_text c.category).stored _)
      (.cons rfl ((reads_text c.summary).stored _)
        (.cons rfl ((reads_text c.description).stored _)
          (.cons rfl ((reads_fields hs c.fields depth).stored _) (.nil _)))))

theorem Octets.head_ofName (name : String) : (Octets.ofName name).head? = some bang := by
  have hzero : (bang != 0) = true := by decide
  unfold ofName untilZero
  cases ofText name with
  | nil => rfl
  | cons b bs => by_cases hb : b = bang <;> simp [hb, hzero]

theorem mem_representItems {vs : List Value} {ns : List Node} (h : representItems vs = some ns) :
    ∀ n ∈ ns, ∃ v ∈ vs, represent none v = some n := by
  induction vs generalizing ns with
  | nil =>
    cases Option.some.inj h
    simp
  | cons v vs ih =>
    obtain ⟨n, hn, h⟩ := Option.bind_eq_some_iff.mp h
    obtain ⟨rest, hrest, h⟩ := Option.bind_eq_some_iff.mp h
    cases Option.some.inj h
    refine List.forall_mem_cons.mpr ⟨⟨v, List.mem_cons_self, hn⟩, ?_⟩
    intro m hm
    obtain ⟨w, hw, hwm⟩ := ih hrest m hm
    exact ⟨w, List.mem_cons_of_mem v hw, hwm⟩

theorem mem_representEntries {es : List (Value × Value)} {ns : List (Node × Node)}
    (h : representEntries es = some ns) :
    ∀ n ∈ ns, ∃ e ∈ es, represent none e.1 = some n.1 ∧ represent none e.2 = some n.2 := by
  induction es generalizing ns with
  | nil =>
    cases Option.some.inj h
    simp
  | cons e es ih =>
    obtain ⟨k, hk, h⟩ := Option.bind_eq_some_iff.mp h
    obtain ⟨n, hn, h⟩ := Option.bind_eq_some_iff.mp h
    obtain ⟨rest, hrest, h⟩ := Option.bind_eq_some_iff.mp h
    cases Option.some.inj h
    refine List.forall_mem_cons.mpr ⟨⟨e, List.mem_cons_self, hk, hn⟩, ?_⟩
    intro m hm
    obtain ⟨f, hf, hfm⟩ := ih hrest m hm
    exact ⟨f, List.mem_cons_of_mem e hf, hfm⟩

theorem localTags_represent {tag : Option Octets} {v : Value} {n : Node}
    (htag : ∀ t ∈ tag.toList, t.head? = some Octets.bang) (h : represent tag v = some n) :
    n.LocalTags := by
  induction v using Value.tree_induction generalizing tag n with
  | null | bool b | int i | float x | str s =>
    cases Option.some.inj h
    exact htag
  | seq vs ih =>
    obtain ⟨ns, hns, rfl⟩ := Option.map_eq_some_iff.mp h
    refine Node.localTags_seq.mpr ⟨htag, ?_⟩
    intro n hn
    obtain ⟨v, hv, hvn⟩ := mem_representItems hns n hn
    exact ih v hv (by simp) hvn
  | map es ih =>
    rw [represent] at h
    split at h
    · cases h
    · obtain ⟨ns, hns, rfl⟩ := Option.map_eq_some_iff.mp h
      refine Node.localTags_map.mpr ⟨htag, ?_⟩
      intro n hn
      obtain ⟨e, he, hkey, hvalue⟩ := mem_representEntries hns n hn
      exact ⟨(ih e he).1 (by simp) hkey, (ih e he).2 (by simp) hvalue⟩
  | tagged name v ih =>
    rw [represent] at h
    split at h
    · cases h
    · exact ih (by simp [Octets.head_ofName]) h

/-- The written form of a value reads back as that value, from a tree with the tags that were written
and no others. The tags matter, as a truth value may be a quoted text under the schema's tag. -/
structure ReadsBack (v : Value) : Prop where
  value : RoundTrips v
  tags : ∀ n, represent none v = some n → (treeOf n.print).tags = n.tags

def readsBack (v : Value) : Bool :=
  match represent none v with
  | none => true
  | some n =>
    let doc := Document.read (Printer.printNode 0 .root n)
    let root := doc.root.getD emptyNode
    root.tags == n.tags && doc.ended &&
      match (readValue (Source.of root) maxDepth .root root).run 0 with
      | .ok (w, _) => w.identical v
      | .error _ => false

theorem ReadsBack.of_readsBack {v : Value} (h : readsBack v = true) : ReadsBack v := by
  cases hn : represent none v with
  | none => exact ⟨by simp [RoundTrips, write, hn], by simp [hn]⟩
  | some n =>
    have hread : Document.read n.print.toList = Document.read (Printer.printNode 0 .root n) := by
      rw [Node.print, String.toList_ofList]
    have hw : write v = .ok n.print := by simp [write, hn]
    simp only [readsBack, hn, ← hread, Bool.and_eq_true, beq_iff_eq] at h
    obtain ⟨⟨htags, hended⟩, hvalue⟩ := h
    have hparse : parseValue n.print = .ok v := by
      split at hvalue
      · next w j hrun =>
        rw [Value.eq_of_identical hvalue] at hrun
        exact decode_eq_ok.mpr ⟨⟨j, hrun⟩, hended⟩
      · cases hvalue
    refine ⟨.of_parseValue hw hparse, ?_⟩
    intro m hm
    cases hn.symm.trans hm
    exact htags

theorem parseComponent_of_readsBack {c : Component} {text : String} (h : ReadsBack c.toValue)
    (hw : write c.toValue = .ok text) : parseComponent text = .ok c := by
  obtain ⟨⟨j, hrun⟩, hended⟩ := decode_eq_ok.mp (h.value text hw)
  have hlocal : (treeOf text).LocalTags := by
    unfold write at hw
    split at hw
    · next n hn =>
      cases hw
      rw [Node.LocalTags, h.tags n hn]
      exact localTags_represent (by simp) hn
    · cases hw
  have hread := reads_component (Source.localTags_of hlocal) c maxDepth _ _ _ _ hlocal hrun
  exact decode_eq_ok.mpr ⟨⟨j, hread⟩, hended⟩

end Yaml

theorem Value.normalize_eq_ok {v full : Value} (hn : v.normalize = .ok full)
    (hround : Yaml.RoundTrips v) : Yaml.Writable v ∧ v.Everywhere DistinctKeys ∧
      full = v.stringKeys := by
  obtain ⟨text, hw, hn⟩ := bind_eq_ok.mp hn
  simp only [hround text hw] at hn
  exact ⟨⟨text, hw⟩, Yaml.distinctKeys_of_parseValue (hround text hw), (Except.ok.inj hn).symm⟩

theorem Value.normalize_of_readsBack {v : Value} (hw : Yaml.Writable v) (h : Yaml.ReadsBack v) :
    v.normalize = .ok v.stringKeys := by
  obtain ⟨text, hw⟩ := hw
  exact normalize_eq hw (h.value text hw)

/-- The normal form of a component is the value of the component with the keys in its examples
rewritten. It can be written, and what is written reads as that component: the component itself if
all keys in its examples are strings. -/
theorem Component.parse_normalized {c : Component} {full : Value}
    (hn : c.toValue.normalize = .ok full) (hround : Yaml.RoundTrips c.toValue)
    (hback : Yaml.ReadsBack full) :
    full = c.rekeyed.toValue ∧
    (∃ text, Yaml.write full = .ok text ∧ Yaml.parseComponent text = .ok c.rekeyed) ∧
    ((∀ p ∈ Schema.places c.fields, ∀ v ∈ p.declaration.examples, v.Everywhere StringKeyed) →
      c.rekeyed = c) := by
  obtain ⟨hwritable, hdistinct, hfull⟩ := Value.normalize_eq_ok hn hround
  obtain ⟨text, htext⟩ := hwritable.stringKeys hdistinct
  rw [c.stringKeys_toValue] at hfull htext
  subst hfull
  refine ⟨rfl, ⟨text, htext, Yaml.parseComponent_of_readsBack hback htext⟩, ?_⟩
  exact Component.rekeyed_eq_self hdistinct

def relay (sample : Value) : Component where
  name := "relay"
  category := "sinks"
  summary := "true"
  fields :=
    [⟨{ name := "routes", interpolation := .batchWide, examples := [sample], options := ["1", ""] },
      [.advanced "null" "a\nb"]⟩]

def routeSample : Value :=
  .map [(.int 1, .bool true), (.str "1", .tagged "ref" (.str "null")), (.null, .seq [])]

def routeSampleRekeyed : Value := .map [(.str "1", .tagged "ref" (.str "null")), (.null, .seq [])]

theorem rekeyed_relay : (relay routeSample).rekeyed = relay routeSampleRekeyed := rfl

theorem Component.parse_normalized_relay :
    ∃ full text, (relay routeSample).toValue.normalize = .ok full ∧ Yaml.write full = .ok text ∧
      Yaml.parseComponent text = .ok (relay routeSampleRekeyed) := by
  have hw : Yaml.Writable (relay routeSample).toValue := Yaml.writable_iff.mpr (by decide +kernel)
  have hround : Yaml.ReadsBack (relay routeSample).toValue := .of_readsBack (by decide +kernel)
  have hback : Yaml.ReadsBack (relay routeSampleRekeyed).toValue := .of_readsBack (by decide +kernel)
  have hn := Value.normalize_of_readsBack hw hround
  rw [Component.stringKeys_toValue, rekeyed_relay] at hn
  obtain ⟨-, ⟨text, htext, hread⟩, -⟩ := Component.parse_normalized hn hround.value hback
  rw [rekeyed_relay] at hread
  exact ⟨_, text, hn, htext, hread⟩

end ComponentDoc
