import Mathlib.Data.List.Infix
import ComponentDoc.Context

/-!
What becomes of the placeholders in a text. Placeholders cannot overlap, so a text is made up of plain
texts and placeholders in one way only. Filling puts the value of each known variable in the place of its
placeholder, all at once, and leaves everything else as it is.
-/

set_option autoImplicit false

namespace ComponentDoc

namespace Placeholder

def IsLetter (c : Char) : Prop := ('a' ≤ c ∧ c ≤ 'z') ∨ ('A' ≤ c ∧ c ≤ 'Z') ∨ c = '_'

def IsIdentifier (name : List Char) : Prop :=
  ∃ c cs, name = c :: cs ∧ IsLetter c ∧ ∀ d ∈ cs, IsLetter d ∨ ('0' ≤ d ∧ d ≤ '9')

/-- No placeholder occurs in the text. -/
def Plain (cs : List Char) : Prop := ∀ name, IsIdentifier name → ¬ written name <:+: cs

/-- Placeholders and the texts between them: what stands in front of the first one, and the name of each
with what stands behind it. -/
structure Parts where
  lead : List Char
  slots : List (List Char × List Char)

namespace Parts

def assemble (value : List Char → List Char) (p : Parts) : List Char :=
  p.lead ++ p.slots.flatMap (fun s => value s.1 ++ s.2)

/-- A text is made up of plain texts and of placeholders between them. -/
structure MakeUp (p : Parts) (cs : List Char) : Prop where
  named : ∀ s ∈ p.slots, IsIdentifier s.1
  lead : Plain p.lead
  behind : ∀ s ∈ p.slots, Plain s.2
  whole : p.assemble written = cs

def cons : Piece → Parts → Parts
  | .char c, p => ⟨c :: p.lead, p.slots⟩
  | .slot name, p => ⟨[], (name, p.lead) :: p.slots⟩

def ofPieces (ps : List Piece) : Parts := ps.foldr cons ⟨[], []⟩

end Parts

/-- The value of a variable as it is; the placeholder as it was written, if there is no such variable. -/
def replacement (value : String → Option String) (name : List Char) : List Char :=
  match value (String.ofList name) with
  | some s => s.toList
  | none => written name

theorem isNameStart_iff {c : Char} : isNameStart c = true ↔ IsLetter c := by
  have hupper : c.isUpper = decide ('A' ≤ c ∧ c ≤ 'Z') := rfl
  have hlower : c.isLower = (decide ('a' ≤ c) && decide (c ≤ 'z')) := rfl
  have halpha : c.isAlpha = (c.isUpper || c.isLower) := rfl
  simp only [isNameStart, halpha, hupper, hlower, Bool.or_eq_true, Bool.and_eq_true,
    decide_eq_true_eq, beq_iff_eq, IsLetter]
  tauto

theorem isNameChar_iff_letter {c : Char} : isNameChar c = true ↔ IsLetter c ∨ ('0' ≤ c ∧ c ≤ '9') := by
  have hdigit : c.isDigit = (decide ('0' ≤ c) && decide (c ≤ '9')) := rfl
  have hchar : isNameChar c = (isNameStart c || c.isDigit) := by
    simp only [isNameChar, isNameStart, Char.isAlphanum]
    cases c.isAlpha <;> cases c.isDigit <;> simp
  rw [hchar, Bool.or_eq_true, isNameStart_iff, hdigit, Bool.and_eq_true, decide_eq_true_eq,
    decide_eq_true_eq]

theorem isName_iff {name : List Char} : isName name = true ↔ IsIdentifier name := by
  cases name with
  | nil => simp [isName, IsIdentifier]
  | cons c cs => simp [isName, IsIdentifier, isNameStart_iff, isNameChar_iff_letter, List.all_eq_true]

theorem isNameChar_of_mem {name : List Char} (h : isName name = true) {c : Char} (hc : c ∈ name) :
    isNameChar c = true := by
  obtain ⟨d, ds, rfl, hd, hds⟩ := isName_iff.mp h
  rcases List.mem_cons.mp hc with rfl | hc
  · exact isNameChar_iff_letter.mpr (.inl hd)
  · exact isNameChar_iff_letter.mpr (hds c hc)

theorem slotAt_written {name : List Char} (h : isName name = true) (rest : List Char) :
    slotAt (written name ++ rest) = some name := by
  have hbrace : isNameChar '\x7d' = false := by decide
  have hend : List.takeWhile isNameChar ('\x7d' :: '\x7d' :: rest) = [] := by
    simp [hbrace]
  have htake : (name ++ '\x7d' :: '\x7d' :: rest).takeWhile isNameChar = name := by
    rw [List.takeWhile_append_of_pos (fun c => isNameChar_of_mem h), hend, List.append_nil]
  simp [slotAt, written, htake, h]

theorem not_begins_of_slotAt_none {cs name : List Char} (hc : slotAt cs = none) (hname : isName name = true) :
    ¬ written name <+: cs := by
  rintro ⟨rest, rfl⟩
  rw [slotAt_written hname] at hc
  cases hc

theorem slotAt_eq_some {cs name : List Char} (h : slotAt cs = some name) :
    isName name = true ∧ ∃ rest, cs = written name ++ rest := by
  unfold slotAt at h
  split at h
  · rename_i cs
    simp only [Option.ite_none_right_eq_some, Bool.and_eq_true, Option.some.injEq] at h
    obtain ⟨⟨hname, hclosed⟩, rfl⟩ := h
    obtain ⟨rest, hrest⟩ := List.isPrefixOf_iff_prefix.mp hclosed
    refine ⟨hname, rest, ?_⟩
    have hcut : cs.takeWhile isNameChar ++ cs.drop (cs.takeWhile isNameChar).length = cs :=
      List.prefix_iff_eq_append.mp (List.takeWhile_prefix isNameChar)
    rw [← hrest] at hcut
    simpa [written] using hcut.symm
  · cases h

theorem scan_eq_drop (k : Nat) (cs : List Char) : scan k cs = scan 0 (cs.drop k) := by
  induction k generalizing cs with
  | zero => rfl
  | succ k ih =>
    cases cs with
    | nil => simp [scan]
    | cons c cs => exact ih cs

theorem pieces_written {name : List Char} (h : isName name = true) (rest : List Char) :
    pieces (written name ++ rest) = .slot name :: pieces rest := by
  have hslot := slotAt_written h rest
  have hdrop : List.drop (name.length + 3) ('\x7b' :: (name ++ ['\x7d', '\x7d']) ++ rest) = rest :=
    List.drop_left' (by simp)
  simp only [written, List.cons_append] at hslot hdrop ⊢
  rw [pieces, scan, hslot]
  simp only [scan_eq_drop (name.length + 3), hdrop, pieces]

theorem pieces_cons {c : Char} {cs : List Char} (h : slotAt (c :: cs) = none) :
    pieces (c :: cs) = .char c :: pieces cs := by
  rw [pieces, scan, h, pieces]

@[elab_as_elim]
theorem text_induction {motive : List Char → Prop} (nil : motive [])
    (slot : ∀ name rest, isName name = true → motive rest → motive (written name ++ rest))
    (char : ∀ c cs, slotAt (c :: cs) = none → motive cs → motive (c :: cs)) (cs : List Char) : motive cs := by
  induction hn : cs.length using Nat.strong_induction_on generalizing cs with
  | h n ih =>
    subst hn
    cases cs with
    | nil => exact nil
    | cons c cs =>
      cases hslot : slotAt (c :: cs) with
      | none => exact char c cs hslot (ih cs.length (by simp) cs rfl)
      | some name =>
        obtain ⟨hname, rest, hrest⟩ := slotAt_eq_some hslot
        rw [hrest] at ih ⊢
        exact slot name rest hname (ih rest.length (by simp [written]; omega) rest rfl)

theorem written_ne_nil (name : List Char) : written name ≠ [] := by simp [written]

theorem not_plain_written {name : List Char} (h : isName name = true) (rest : List Char) :
    ¬ Plain (written name ++ rest) :=
  fun hplain => hplain name (isName_iff.mp h) (List.prefix_append _ _).isInfix

theorem Plain.tail {c : Char} {cs : List Char} (h : Plain (c :: cs)) : Plain cs :=
  fun name hname hin => h name hname (List.infix_cons hin)

theorem written_append_inj {name m rest x : List Char} (hname : isName name = true)
    (hm : isName m = true) (h : written m ++ x = written name ++ rest) : m = name ∧ x = rest := by
  have hslot := slotAt_written hm x
  rw [h, slotAt_written hname] at hslot
  obtain rfl := Option.some.inj hslot
  exact ⟨rfl, List.append_cancel_left h⟩

theorem brace_notMem {name : List Char} (h : isName name = true) :
    '\x7b' ∉ name ++ ['\x7d', '\x7d'] := by
  intro hmem
  rcases List.mem_append.mp hmem with hmem | hmem
  · exact absurd (isNameChar_of_mem h hmem) (by decide)
  · exact absurd hmem (by decide)

theorem head_mem {c : Char} {cs l rest : List Char} (hl : l ≠ []) (h : c :: cs = l ++ rest) : c ∈ l := by
  cases l with
  | nil => exact absurd rfl hl
  | cons d l =>
    obtain ⟨rfl, -⟩ := List.cons_eq_cons.mp h
    exact List.mem_cons_self

/-- Placeholders do not overlap: none begins inside another. -/
theorem not_written_inside {name lead inside m x rest : List Char} (h : isName name = true)
    (hcut : written name = lead ++ inside) (hlead : lead ≠ []) (hinside : inside ≠ []) :
    written m ++ x ≠ inside ++ rest := by
  intro heq
  match lead, hlead with
  | [_], _ =>
    obtain ⟨-, rfl⟩ := List.cons_eq_cons.mp hcut
    obtain ⟨-, htail⟩ := List.cons_eq_cons.mp heq
    exact brace_notMem h (head_mem (by simp) htail)
  | _ :: _ :: lead, _ =>
    obtain ⟨-, hcut⟩ := List.cons_eq_cons.mp hcut
    obtain ⟨-, hcut⟩ := List.cons_eq_cons.mp hcut
    exact brace_notMem h (hcut ▸ List.mem_append_right lead (head_mem hinside heq))

theorem occurrence_cases {name m pre x rest : List Char} (hname : isName name = true)
    (hm : isName m = true) (h : pre ++ (written m ++ x) = written name ++ rest) :
    (pre = [] ∧ m = name ∧ x = rest) ∨
      ∃ behind, pre = written name ++ behind ∧ rest = behind ++ (written m ++ x) := by
  rcases List.append_eq_append_iff.mp h with ⟨inside, hcut, hinside⟩ | hbehind
  · by_cases hpre : pre = []
    · subst hpre
      exact .inl ⟨rfl, written_append_inj hname hm h⟩
    · have hempty : inside = [] := by
        by_contra hne
        exact not_written_inside hname hcut hpre hne hinside
      subst hempty
      exact .inr ⟨[], by rw [hcut, List.append_nil, List.append_nil], hinside.symm⟩
  · exact .inr hbehind

namespace Parts

variable {p q : Parts} {cs : List Char}

def names (p : Parts) : List (List Char) := p.slots.map Prod.fst

namespace MakeUp

theorem nil : MakeUp ⟨[], []⟩ [] where
  named := by simp
  lead := by simp [Plain, written_ne_nil]
  behind := by simp
  whole := rfl

theorem slot {name rest : List Char} (hname : isName name = true) (h : p.MakeUp rest) :
    (p.cons (.slot name)).MakeUp (written name ++ rest) where
  named := List.forall_mem_cons.mpr ⟨isName_iff.mp hname, h.named⟩
  lead := nil.lead
  behind := List.forall_mem_cons.mpr ⟨h.lead, h.behind⟩
  whole := by simp [← h.whole, cons, assemble]

theorem char {c : Char} (hc : slotAt (c :: cs) = none) (h : p.MakeUp cs) :
    (p.cons (.char c)).MakeUp (c :: cs) where
  named := h.named
  lead name hname hin := by
    rcases List.infix_cons_iff.mp hin with hpre | hin
    · have hlead : p.lead <+: cs := h.whole ▸ List.prefix_append p.lead _
      have hwritten : written name <+: c :: cs :=
        hpre.trans (List.cons_prefix_cons.mpr ⟨rfl, hlead⟩)
      exact not_begins_of_slotAt_none hc (isName_iff.mpr hname) hwritten
    · exact h.lead name hname hin
  behind := h.behind
  whole := by simp [← h.whole, cons, assemble]

theorem of_nil (h : q.MakeUp []) : q = ⟨[], []⟩ := by
  obtain ⟨lead, slots⟩ := q
  have hwhole := h.whole
  cases slots with
  | nil => simpa [assemble] using hwhole
  | cons s slots => simp [assemble, written_ne_nil] at hwhole

theorem of_slot {name rest : List Char} (hname : isName name = true)
    (h : q.MakeUp (written name ++ rest)) : ∃ p : Parts, p.MakeUp rest ∧ q = p.cons (.slot name) := by
  obtain ⟨lead, slots⟩ := q
  have hwhole := h.whole
  have hplain : Plain lead := h.lead
  cases slots with
  | nil =>
    have hlead : lead = written name ++ rest := by simpa [assemble] using hwhole
    exact absurd (hlead ▸ hplain) (not_plain_written hname rest)
  | cons s slots =>
    obtain ⟨m, t⟩ := s
    have hm : isName m = true := isName_iff.mpr (h.named (m, t) List.mem_cons_self)
    have hsplit : lead ++ (written m ++ assemble written ⟨t, slots⟩) = written name ++ rest := by
      simpa [assemble] using hwhole
    rcases occurrence_cases hname hm hsplit with ⟨rfl, rfl, hrest⟩ | ⟨behind, hlead, -⟩
    · refine ⟨⟨t, slots⟩, ?_, rfl⟩
      exact ⟨fun s hs => h.named s (List.mem_cons_of_mem _ hs), h.behind (m, t) List.mem_cons_self,
        fun s hs => h.behind s (List.mem_cons_of_mem _ hs), hrest⟩
    · exact absurd (hlead ▸ hplain) (not_plain_written hname behind)

theorem of_char {c : Char} (hc : slotAt (c :: cs) = none) (h : q.MakeUp (c :: cs)) :
    ∃ p : Parts, p.MakeUp cs ∧ q = p.cons (.char c) := by
  obtain ⟨lead, slots⟩ := q
  have hwhole := h.whole
  cases lead with
  | nil =>
    cases slots with
    | nil => simp [assemble] at hwhole
    | cons s slots =>
      have hname := isName_iff.mpr (h.named s List.mem_cons_self)
      rw [assemble, List.nil_append, List.flatMap_cons, List.append_assoc] at hwhole
      exact absurd ⟨_, hwhole⟩ (not_begins_of_slotAt_none hc hname)
  | cons d lead =>
    obtain ⟨rfl, hrest⟩ := List.cons_eq_cons.mp hwhole
    exact ⟨⟨lead, slots⟩, ⟨h.named, Plain.tail h.lead, h.behind, hrest⟩, rfl⟩

end MakeUp

theorem makeUp_ofPieces (cs : List Char) : (ofPieces (pieces cs)).MakeUp cs := by
  induction cs using text_induction with
  | nil => exact MakeUp.nil
  | slot name rest hname ih => rw [pieces_written hname]; exact ih.slot hname
  | char c cs hc ih => rw [pieces_cons hc]; exact ih.char hc

/-- A text is made up of plain texts and placeholders in one way only. -/
theorem MakeUp.eq_ofPieces (h : q.MakeUp cs) : q = ofPieces (pieces cs) := by
  induction cs using text_induction generalizing q with
  | nil => exact h.of_nil
  | slot name rest hname ih =>
    obtain ⟨p, hp, rfl⟩ := h.of_slot hname
    rw [pieces_written hname, ih hp]
    rfl
  | char c cs hc ih =>
    obtain ⟨p, hp, rfl⟩ := h.of_char hc
    rw [pieces_cons hc, ih hp]
    rfl

theorem MakeUp.mem_names (h : p.MakeUp cs) {name : List Char} (hname : isName name = true) :
    name ∈ p.names ↔ written name <:+: cs := by
  induction cs using text_induction generalizing p with
  | nil =>
    rw [h.of_nil]
    simp [names, written_ne_nil]
  | slot m rest hm ih =>
    obtain ⟨p, hp, rfl⟩ := h.of_slot hm
    have hnames : (p.cons (.slot m)).names = m :: p.names := rfl
    rw [hnames, List.mem_cons, ih hp]
    constructor
    · rintro (rfl | hrest)
      · exact (List.prefix_append _ rest).isInfix
      · exact hrest.trans (List.suffix_append _ rest).isInfix
    · rintro ⟨pre, x, hin⟩
      rw [List.append_assoc] at hin
      rcases occurrence_cases hm hname hin with ⟨-, heq, -⟩ | ⟨behind, -, hrest⟩
      · exact .inl heq
      · exact .inr ⟨behind, x, by rw [hrest, List.append_assoc]⟩
  | char c cs hc ih =>
    obtain ⟨p, hp, rfl⟩ := h.of_char hc
    have hnames : (p.cons (.char c)).names = p.names := rfl
    rw [hnames, ih hp, List.infix_cons_iff, or_iff_right (not_begins_of_slotAt_none hc hname)]

theorem assemble_congr {v w : List Char → List Char} (h : ∀ name ∈ p.names, v name = w name) :
    p.assemble v = p.assemble w := by
  rw [assemble, assemble]
  congr 1
  exact List.flatMap_congr fun s hs => by rw [h s.1 (List.mem_map_of_mem hs)]

theorem assemble_ofPieces (value : String → Option String) (ps : List Piece) :
    (ofPieces ps).assemble (replacement value) = ps.flatMap (Piece.fill value) := by
  induction ps with
  | nil => rfl
  | cons piece ps ih =>
    rw [List.flatMap_cons, ← ih]
    cases piece with
    | char c => rfl
    | slot name =>
      have hfill : Piece.fill value (.slot name) = replacement value name := rfl
      simp [ofPieces, cons, assemble, hfill]

end Parts

theorem toList_fill (value : String → Option String) (content : String) :
    (fill value content).toList =
      (Parts.ofPieces (pieces content.toList)).assemble (replacement value) := by
  rw [fill, String.toList_ofList, Parts.assemble_ofPieces]

theorem replacement_nameAndType (s t : String) (name : List Char) :
    replacement ([("name", s), ("type", t)].lookup ·) name =
      if String.ofList name = "name" then s.toList
      else if String.ofList name = "type" then t.toList
      else written name := by
  by_cases hname : String.ofList name = "name"
  · simp [replacement, hname]
  · by_cases htype : String.ofList name = "type"
    · simp [replacement, List.lookup_cons, htype]
    · have hname' : (String.ofList name == "name") = false := beq_false_of_ne hname
      have htype' : (String.ofList name == "type") = false := beq_false_of_ne htype
      simp only [replacement, List.lookup_cons, List.lookup_nil, hname', htype', hname, htype, if_false]

/-- A text is made up of plain texts and placeholders in exactly one way, and its placeholders are all that
occur in it. Filling puts the value of each known variable in the place of its placeholder, as it is, and
changes nothing else: so only the variables that occur matter, and a text of which none is known stays as
it is. The hint at the source of a component is filled with its name and its category, even if these
look like placeholders themselves. -/
theorem fill_replaces (content : String) :
    ∃ p : Parts, p.MakeUp content.toList ∧ (∀ q : Parts, q.MakeUp content.toList → q = p) ∧
      (∀ name, IsIdentifier name → (name ∈ p.names ↔ written name <:+: content.toList)) ∧
      (∀ value, (fill value content).toList = p.assemble (replacement value)) ∧
      (∀ value other, (∀ name, IsIdentifier name → written name <:+: content.toList →
          value (String.ofList name) = other (String.ofList name)) →
        fill value content = fill other content) ∧
      (∀ value, (∀ name, IsIdentifier name → written name <:+: content.toList →
          value (String.ofList name) = none) →
        fill value content = content) ∧
      ∀ (config : Config) (c : Component), config.sourceHint = content →
        (Context.hintFor config c).toList = p.assemble fun name =>
          if String.ofList name = "name" then c.name.toList
          else if String.ofList name = "type" then c.category.toList
          else written name := by
  have hp := Parts.makeUp_ofPieces content.toList
  have hoccur : ∀ name ∈ (Parts.ofPieces (pieces content.toList)).names,
      IsIdentifier name ∧ written name <:+: content.toList := by
    intro name hmem
    obtain ⟨s, hs, rfl⟩ := List.mem_map.mp hmem
    exact ⟨hp.named s hs, (hp.mem_names (isName_iff.mpr (hp.named s hs))).mp hmem⟩
  refine ⟨_, hp, fun q hq => hq.eq_ofPieces, fun name hname => hp.mem_names (isName_iff.mpr hname),
    fun value => toList_fill value content, ?same, ?unknown, ?hint⟩
  case same =>
    intro value other hsame
    rw [← String.toList_inj, toList_fill, toList_fill]
    refine Parts.assemble_congr fun name hmem => ?_
    rw [replacement, replacement, hsame name (hoccur name hmem).1 (hoccur name hmem).2]
  case unknown =>
    intro value hnone
    rw [← String.toList_inj, toList_fill]
    refine (Parts.assemble_congr fun name hmem => ?_).trans hp.whole
    rw [replacement, hnone name (hoccur name hmem).1 (hoccur name hmem).2]
  case hint =>
    rintro config c rfl
    rw [Context.hintFor, toList_fill]
    exact Parts.assemble_congr fun name _ => replacement_nameAndType c.name c.category name

example :
    fill ([("name", "\x7b\x7btype\x7d\x7d"), ("type", "sink")].lookup ·)
        "\x7b\x7btype\x7d\x7d/\x7b\x7b\x7bname\x7d\x7d\x7d.yaml" =
      "sink/\x7b\x7b\x7btype\x7d\x7d\x7d.yaml" := by
  decide +kernel

end Placeholder

end ComponentDoc
