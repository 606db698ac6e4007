import ComponentDoc.Proofs.DottedPath
import ComponentDoc.Value.Access

/-!
The declarations of a schema in pre-order, each with those above it. What is said about a schema as a
whole is said about its places: where they lie, which names lead to them, and what an example holds
there.
-/

set_option autoImplicit false

namespace ComponentDoc

/-- A declaration where it stands: the declarations above it, outermost first, and the fields beneath. -/
structure Place where
  above : List Declaration
  declaration : Declaration
  children : List Field

namespace Place

def chain (p : Place) : List Declaration := p.above ++ [p.declaration]

def names (p : Place) : List String := p.chain.map Declaration.name

def path (p : Place) : String := Path.ofNames p.names

def hasChildren (p : Place) : Bool := !p.children.isEmpty

/-- Every declaration on the way passes a test. -/
def isKept (keep : Declaration → Bool) (p : Place) : Bool := p.chain.all keep

/-- Neither the declaration nor any above it is deprecated. -/
def isLive (p : Place) : Bool := p.isKept (fun d => !d.deprecated)

/-- What the names on the way lead to in a value, one key after the other. -/
def found (v : Value) (p : Place) : Option Value := p.names.foldlM Value.getKey v

/-- Fields are declared beneath a place, but the value there is no mapping. -/
def isBlocked (v : Value) (p : Place) : Bool :=
  p.hasChildren && (p.found v).any (fun w => w.asMapping.isNone)

def under (d : Declaration) (p : Place) : Place := { p with above := d :: p.above }

def top (d : Declaration) (gs : List Field) : Place := ⟨[], d, gs⟩

def child (p : Place) (d : Declaration) (gs : List Field) : Place := ⟨p.chain, d, gs⟩

end Place

mutual

def Field.places : Field → List Place
  | ⟨d, gs⟩ => Place.top d gs :: (Schema.places gs).map (Place.under d)

/-- All declarations of a schema, parents before children. -/
def Schema.places : List Field → List Place
  | [] => []
  | f :: fs => f.places ++ Schema.places fs

end

/-- The places that a document shows. -/
def Schema.livePlaces (fs : List Field) : List Place := (places fs).filter Place.isLive

@[simp] theorem Field.name_node (d : Declaration) (gs : List Field) :
    Field.name ⟨d, gs⟩ = d.name := rfl

@[elab_as_elim]
theorem Field.forest {motive : List Field → Prop} (nil : motive [])
    (cons : ∀ d gs fs, motive gs → motive fs → motive (⟨d, gs⟩ :: fs)) :
    ∀ fs, motive fs
  | [] => nil
  | ⟨d, gs⟩ :: fs => cons d gs fs (Field.forest nil cons gs) (Field.forest nil cons fs)

@[elab_as_elim]
theorem Field.level_induction {motive : List Field → Prop}
    (level : ∀ fs, (∀ d gs, ⟨d, gs⟩ ∈ fs → motive gs) → motive fs) (fs : List Field) : motive fs := by
  -- Siblings hand down what is known beneath them, so both halves are carried along.
  have hboth : motive fs ∧ ∀ d gs, ⟨d, gs⟩ ∈ fs → motive gs := by
    induction fs using Field.forest with
    | nil => exact ⟨level [] (by simp), by simp⟩
    | cons d gs fs ihg ihf =>
      have hbelow : ∀ e hs, ⟨e, hs⟩ ∈ ⟨d, gs⟩ :: fs → motive hs := by
        intro e hs hmem
        rcases List.mem_cons.mp hmem with heq | hmem
        · cases heq
          exact ihg.1
        · exact ihf.2 e hs hmem
      exact ⟨level _ hbelow, hbelow⟩
  exact hboth.1

namespace Place

variable (d : Declaration) (gs : List Field) (p : Place) (v : Value) (keep : Declaration → Bool)

@[simp] theorem declaration_top : (top d gs).declaration = d := rfl

@[simp] theorem children_top : (top d gs).children = gs := rfl

@[simp] theorem declaration_under : (p.under d).declaration = p.declaration := rfl

@[simp] theorem children_under : (p.under d).children = p.children := rfl

@[simp] theorem hasChildren_under : (p.under d).hasChildren = p.hasChildren := rfl

@[simp] theorem names_top : (top d gs).names = [d.name] := rfl

@[simp] theorem names_under : (p.under d).names = d.name :: p.names := rfl

theorem names_ne_nil : p.names ≠ [] := by simp [names, chain]

@[simp] theorem path_top : (top d gs).path = d.name := Path.ofNames_singleton d.name

@[simp] theorem path_under : (p.under d).path = d.name ++ "." ++ p.path :=
  Path.ofNames_cons p.names_ne_nil

@[simp] theorem isKept_top : (top d gs).isKept keep = keep d := by simp [isKept, chain, top]

@[simp] theorem isKept_under : (p.under d).isKept keep = (keep d && p.isKept keep) := rfl

variable {p keep} in
theorem keep_declaration (h : p.isKept keep = true) : keep p.declaration = true :=
  List.all_eq_true.mp h p.declaration (by simp [chain])

@[simp] theorem isLive_top : (top d gs).isLive = !d.deprecated := isKept_top d gs _

@[simp] theorem isLive_under : (p.under d).isLive = (!d.deprecated && p.isLive) := rfl

@[simp] theorem found_top : (top d gs).found v = v.getKey d.name := by simp [found]

@[simp] theorem found_under :
    (p.under d).found v = (v.getKey d.name).bind (fun w => p.found w) := rfl

theorem path_child : (p.child d gs).path = p.path ++ "." ++ d.name := by
  have hnames : (p.child d gs).names = p.names ++ [d.name] := by simp [names, chain, child]
  rw [path, hnames, Path.ofNames_concat p.names_ne_nil, path]

theorem isLive_child : (p.child d gs).isLive = (p.isLive && !d.deprecated) := by
  simp [isLive, isKept, chain, child, Bool.and_assoc]

end Place

namespace Schema

@[simp] theorem places_nil : places [] = [] := rfl

theorem places_cons (d : Declaration) (gs fs : List Field) :
    places (⟨d, gs⟩ :: fs) = .top d gs :: ((places gs).map (Place.under d) ++ places fs) := rfl

theorem mem_places_iff {fs : List Field} {p : Place} :
    p ∈ places fs ↔
      ∃ d gs, ⟨d, gs⟩ ∈ fs ∧ (p = .top d gs ∨ ∃ q ∈ places gs, p = q.under d) := by
  induction fs with
  | nil => simp
  | cons f fs ih =>
    obtain ⟨d, gs⟩ := f
    simp only [places_cons, List.mem_cons, List.mem_append, List.mem_map, ih]
    constructor
    · intro h
      rcases h with rfl | ⟨q, hq, rfl⟩ | ⟨e, hs, he, hp⟩
      · exact ⟨d, gs, .inl rfl, .inl rfl⟩
      · exact ⟨d, gs, .inl rfl, .inr ⟨q, hq, rfl⟩⟩
      · exact ⟨e, hs, .inr he, hp⟩
    · intro h
      obtain ⟨e, hs, he | he, hp⟩ := h
      · cases he
        obtain rfl | ⟨q, hq, rfl⟩ := hp
        · exact .inl rfl
        · exact .inr (.inl ⟨q, hq, rfl⟩)
      · exact .inr (.inr ⟨e, hs, he, hp⟩)

theorem top_mem_places {d : Declaration} {gs fs : List Field} (h : ⟨d, gs⟩ ∈ fs) :
    .top d gs ∈ places fs := mem_places_iff.mpr ⟨d, gs, h, .inl rfl⟩

theorem under_mem_places {d : Declaration} {gs fs : List Field} {q : Place} (h : ⟨d, gs⟩ ∈ fs)
    (hq : q ∈ places gs) : q.under d ∈ places fs := mem_places_iff.mpr ⟨d, gs, h, .inr ⟨q, hq, rfl⟩⟩

@[elab_as_elim]
theorem places_induction {motive : (fs : List Field) → (p : Place) → p ∈ places fs → Prop}
    (top : ∀ fs d gs (hmem : ⟨d, gs⟩ ∈ fs), motive fs (.top d gs) (top_mem_places hmem))
    (under : ∀ fs d gs q (hmem : ⟨d, gs⟩ ∈ fs) (hq : q ∈ places gs), motive gs q hq →
      motive fs (q.under d) (under_mem_places hmem hq))
    {fs : List Field} {p : Place} (h : p ∈ places fs) : motive fs p h := by
  induction ha : p.above generalizing fs p with
  | nil =>
    obtain ⟨d, gs, hmem, rfl | ⟨q, hq, rfl⟩⟩ := mem_places_iff.mp h
    · exact top fs d gs hmem
    · cases ha
  | cons a as ih =>
    obtain ⟨d, gs, hmem, rfl | ⟨q, hq, rfl⟩⟩ := mem_places_iff.mp h
    · cases ha
    · exact under fs d gs q hmem hq (ih hq (List.cons.inj ha).2)

theorem child_mem_places {fs : List Field} {p : Place} (hp : p ∈ places fs) {d : Declaration}
    {gs : List Field} (h : ⟨d, gs⟩ ∈ p.children) : p.child d gs ∈ places fs := by
  induction hp using places_induction with
  | top fs e hs hmem => exact under_mem_places hmem (top_mem_places h)
  | under fs e hs q hmem _ ih => exact under_mem_places hmem (ih h)

theorem isKept_of_forall {keep keep' : Declaration → Bool} {fs : List Field}
    (h : ∀ p ∈ places fs, p.isKept keep = true → keep' p.declaration = true) {p : Place}
    (hp : p ∈ places fs) (hk : p.isKept keep = true) : p.isKept keep' = true := by
  induction hp using places_induction with
  | top fs d gs hmem =>
    have hd := h _ (top_mem_places hmem) hk
    simpa using hd
  | under fs d gs q hmem _ ih =>
    obtain ⟨hd, hq⟩ : keep d = true ∧ q.isKept keep = true := by simpa using hk
    have htop := h _ (top_mem_places hmem) (by simpa using hd)
    have hbelow : ∀ r ∈ places gs, r.isKept keep = true → keep' r.declaration = true := by
      intro r hr hrk
      exact h (r.under d) (under_mem_places hmem hr) (by simp [hd, hrk])
    rw [Place.isKept_under, ih hbelow hq, Bool.and_true]
    exact htop

theorem mem_livePlaces {fs : List Field} {p : Place} :
    p ∈ livePlaces fs ↔ p ∈ places fs ∧ p.isLive = true := List.mem_filter

/-- Siblings bear different names, on the top level and beneath every declaration. -/
def Distinct (fs : List Field) : Prop :=
  (fs.map Field.name).Nodup ∧ ∀ p ∈ places fs, (p.children.map Field.name).Nodup

/-- Every declaration's name is a single segment, and siblings differ. -/
structure WellNamed (fs : List Field) : Prop where
  named : ∀ p ∈ places fs, isFieldName p.declaration.name = true
  distinct : Distinct fs

theorem distinct_cons {d : Declaration} {gs fs : List Field} :
    Distinct (⟨d, gs⟩ :: fs) ↔ d.name ∉ fs.map Field.name ∧ Distinct gs ∧ Distinct fs := by
  simp only [Distinct, places_cons, List.map_cons, List.nodup_cons, List.forall_mem_cons,
    List.forall_mem_append, List.forall_mem_map, Place.children_top, Place.children_under]
  constructor
  · intro h
    obtain ⟨⟨hn, hf⟩, hg, hgs, hfs⟩ := h
    exact ⟨hn, ⟨hg, hgs⟩, hf, hfs⟩
  · intro h
    obtain ⟨hn, ⟨hg, hgs⟩, hf, hfs⟩ := h
    exact ⟨⟨hn, hf⟩, hg, hgs, hfs⟩

theorem wellNamed_cons {d : Declaration} {gs fs : List Field} :
    WellNamed (⟨d, gs⟩ :: fs) ↔
      isFieldName d.name = true ∧ d.name ∉ fs.map Field.name ∧ WellNamed gs ∧ WellNamed fs := by
  constructor
  · intro h
    obtain ⟨hn, hd⟩ := h
    simp only [places_cons, List.forall_mem_cons, List.forall_mem_append,
      List.forall_mem_map] at hn
    obtain ⟨hd, hgs, hfs⟩ := distinct_cons.mp hd
    exact ⟨hn.1, hd, ⟨hn.2.1, hgs⟩, ⟨hn.2.2, hfs⟩⟩
  · intro h
    obtain ⟨hn, hd, ⟨hgn, hgs⟩, hfn, hfs⟩ := h
    refine ⟨?_, distinct_cons.mpr ⟨hd, hgs, hfs⟩⟩
    simp only [places_cons, List.forall_mem_cons, List.forall_mem_append, List.forall_mem_map]
    exact ⟨hn, hgn, hfn⟩

theorem Distinct.children {d : Declaration} {gs fs : List Field} (h : Distinct fs)
    (hmem : ⟨d, gs⟩ ∈ fs) : Distinct gs :=
  ⟨h.2 _ (top_mem_places hmem), fun q hq => h.2 (q.under d) (under_mem_places hmem hq)⟩

theorem Distinct.beneath {fs : List Field} {p : Place} (h : Distinct fs) (hp : p ∈ places fs) :
    Distinct p.children := by
  induction hp using places_induction with
  | top fs d gs hmem => exact h.children hmem
  | under fs d gs q hmem _ ih => exact ih (h.children hmem)

theorem WellNamed.children {d : Declaration} {gs fs : List Field} (h : WellNamed fs)
    (hmem : ⟨d, gs⟩ ∈ fs) : WellNamed gs :=
  ⟨fun q hq => h.named (q.under d) (under_mem_places hmem hq), h.distinct.children hmem⟩

theorem WellNamed.isFieldName {d : Declaration} {gs fs : List Field} (h : WellNamed fs)
    (hmem : ⟨d, gs⟩ ∈ fs) : isFieldName d.name = true := h.named _ (top_mem_places hmem)

theorem WellNamed.isFieldName_of_mem_names {fs : List Field} (h : WellNamed fs) {p : Place}
    (hp : p ∈ places fs) : ∀ n ∈ p.names, Schema.isFieldName n = true := by
  induction hp using places_induction with
  | top fs d gs hmem => simpa using h.isFieldName hmem
  | under fs d gs q hmem _ ih => simpa using ⟨h.isFieldName hmem, ih (h.children hmem)⟩

end Schema

end ComponentDoc
