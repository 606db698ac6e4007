import ComponentDoc.Command.Outcome
import ComponentDoc.Proofs.Building
import ComponentDoc.Proofs.PlainLayout

/-!
The exit codes of both commands, for any contents of the two files they work on. Every failure that a
command can meet is traced to the cause that settles its exit code, or to the text that it is told by.
-/

set_option autoImplicit false

namespace ComponentDoc

theorem mapError_eq_ok {ε ε' α : Type} {x : Except ε α} {f : ε → ε'} {a : α} :
    x.mapError f = .ok a ↔ x = .ok a := by
  cases x <;> simp [Except.mapError]

theorem mapError_eq_error {ε ε' α : Type} {x : Except ε α} {f : ε → ε'} {e' : ε'} :
    x.mapError f = .error e' ↔ ∃ e, x = .error e ∧ f e = e' := by
  cases x <;> simp [Except.mapError]

def Files.ofOctets (octets : String → Except FileError (List UInt8)) : Files :=
  fun path => octets path >>= FileTree.decodeText

theorem FileTree.decodeText_eq_ok {octets : List UInt8} {text : String} :
    decodeText octets = .ok text ↔ octets = text.toUTF8.data.toList := by
  have hutf8 : String.fromUTF8? ⟨octets.toArray⟩ = some text ↔
      octets = text.toUTF8.data.toList := by
    rw [String.fromUTF8?]
    constructor
    · intro h
      split at h
      · cases h
        rfl
      · cases h
    · intro h
      have htext : ByteArray.mk octets.toArray = text.toByteArray := by rw [h]; rfl
      rw [dif_pos (htext ▸ text.isValidUTF8)]
      exact congrArg some (String.toByteArray_inj.mp htext)
  rw [decodeText]
  cases hdecoded : String.fromUTF8? ⟨octets.toArray⟩ with
  | none => simp [hdecoded] at hutf8; simpa using hutf8
  | some s => simpa [hdecoded] using hutf8

theorem Files.ofOctets_eq_ok {octets : String → Except FileError (List UInt8)} {path text : String} :
    ofOctets octets path = .ok text ↔ octets path = .ok text.toUTF8.data.toList := by
  rw [ofOctets, bind_eq_ok]
  simp only [FileTree.decodeText_eq_ok]
  constructor
  · intro h
    obtain ⟨bytes, hbytes, rfl⟩ := h
    exact hbytes
  · exact fun h => ⟨_, h, rfl⟩

theorem Files.load_eq_ok {α : Type} {parse : String → Except Yaml.ReadError α} {files : Files}
    {path : String} {a : α} :
    files.load parse path = .ok a ↔ ∃ text, files path = .ok text ∧ parse text = .ok a := by
  rw [Files.load]
  cases files path with
  | error e => simp
  | ok text => simp [mapError_eq_ok]

theorem document_eq (config : Config) (c : Component) (sample : Value) :
    document config c sample =
      match Context.build config c sample with
      | .error e => .error (.schema e)
      | .ok context => .ok (Layout.plain context) := by
  unfold document
  cases Context.build config c sample with
  | error e => rfl
  | ok context =>
    -- To simplify with the layout's source in the goal would decode it, so the lemma is applied.
    dsimp only
    exact mapError_eq_ok.mpr (Layout.render_standard context)

namespace Command

namespace Failure

/-- Where a cause settles the exit code, what is told around it does not count. -/
theorem exit_within {f : Failure} {code : ExitCode} (text : String)
    (h : f.causes.findSome? Cause.exit = some code) : (f.within text).exit = code := by
  have hwithin : (f.within text).causes.findSome? Cause.exit = some code := h
  rw [exit, hwithin]

theorem findSome?_ofComponent (e : ComponentError) :
    (ofComponent e).causes.findSome? Cause.exit = some e.exit := rfl

theorem exit_within_ofComponent (e : ComponentError) (text : String) :
    ((ofComponent e).within text).exit = e.exit := exit_within text (findSome?_ofComponent e)

theorem exit_ofRender (e : RenderError) : (ofRender e).exit = e.exit := by
  have hsettled : (ofRender e).causes.findSome? Cause.exit = some e.exit := rfl
  rw [exit, hsettled]

theorem exit_ofText {text : String} (h : "validation".toList <:+: text.toList.map Char.toLower) :
    (ofText text).exit = .validation := by
  have hsettled : (ofText text).causes.findSome? Cause.exit = none := rfl
  have hlower : text.toLower.toList = text.toList.map Char.toLower := String.toList_map
  have hnames : (ofText text).namesValidation = true :=
    String.contains_string_iff.mpr (hlower ▸ h)
  rw [exit, hsettled, hnames]
  rfl

theorem exit_invalid (category name : String) :
    (ofText ("validation failed for " ++ category ++ " " ++ name)).exit = .validation := by
  apply exit_ofText
  rw [String.toList_append, String.toList_append, String.toList_append, List.append_assoc,
    List.append_assoc, List.map_append]
  exact List.IsInfix.trans (by decide) (List.prefix_append _ _).isInfix

end Failure

/-- The files hold the texts of a component and of an example, in UTF-8. -/
structure Loads (octets : String → Except FileError (List UInt8)) (component sample : String)
    (c : Component) (v : Value) : Prop where
  component : ∃ text : String, octets component = .ok text.toUTF8.data.toList ∧
    Yaml.parseComponent text = .ok c
  sample : ∃ text : String, octets sample = .ok text.toUTF8.data.toList ∧
    Yaml.parseValue text = .ok v

/-- The linter and the reconciler have nothing to object to. -/
structure Passes (strict : Bool) (c : Component) (v : Value) : Prop where
  errors : (Schema.lint c).errors = []
  warnings : strict = true → (Schema.lint c).warnings = []
  reconciled : c.fields = [] ∨ (Schema.reconcile c.fields v).isConsistent = true

theorem passes_iff {strict : Bool} {c : Component} {v : Value} :
    (Validation.ofSample c v).passes strict = true ↔ Passes strict c v := by
  have hreconciled : (Validation.ofSample c v).reconciliation.all Reconciliation.isConsistent = true ↔
      c.fields = [] ∨ (Schema.reconcile c.fields v).isConsistent = true := by
    by_cases hfields : c.fields = [] <;>
      simp [Validation.ofSample, Component.hasSchema, hfields]
  have hwarnings : (!(strict && !(Schema.lint c).warnings.isEmpty)) = true ↔
      (strict = true → (Schema.lint c).warnings = []) := by
    cases strict <;> simp
  rw [Validation.passes, Bool.and_eq_true, Bool.and_eq_true, hreconciled]
  constructor
  · intro h
    obtain ⟨⟨herrors, hwarn⟩, hfit⟩ := h
    exact ⟨List.isEmpty_iff.mp herrors, hwarnings.mp hwarn, hfit⟩
  · intro h
    exact ⟨⟨List.isEmpty_iff.mpr h.errors, hwarnings.mpr h.warnings⟩, h.reconciled⟩

section

variable {octets : String → Except FileError (List UInt8)} {files : Files} {component sample : String}
  {c : Component} {v : Value}

theorem loadBoth_eq_ok :
    loadBoth (.ofOctets octets) component sample = .ok (c, v) ↔
      Loads octets component sample c v := by
  have hpair : loadBoth (.ofOctets octets) component sample = .ok (c, v) ↔
      Component.ofFile (.ofOctets octets) component = .ok c ∧
        Value.ofFile (.ofOctets octets) sample = .ok v := by
    simp only [loadBoth, bind_eq_ok, mapError_eq_ok, pure, Except.pure, Except.ok.injEq,
      Prod.mk.injEq]
    constructor
    · intro h
      obtain ⟨_, hc, _, hv, rfl, rfl⟩ := h
      exact ⟨hc, hv⟩
    · exact fun h => ⟨c, h.1, v, h.2, rfl, rfl⟩
  rw [hpair, Component.ofFile, Value.ofFile, Files.load_eq_ok, Files.load_eq_ok]
  simp only [Files.ofOctets_eq_ok]
  exact ⟨fun h => ⟨h.1, h.2⟩, fun h => ⟨h.1, h.2⟩⟩

theorem exit_loadFailure (what path : String) (e : LoadError) :
    (loadFailure what path e).exit = .arguments := Failure.exit_within_ofComponent (.load e) _

theorem exit_of_loadBoth_eq_error {f : Failure} (h : loadBoth files component sample = .error f) :
    f.exit = .arguments := by
  rw [loadBoth] at h
  cases hc : (Component.ofFile files component).mapError (loadFailure "component spec" component) with
  | error g =>
    rw [hc] at h
    cases h
    obtain ⟨e, _, rfl⟩ := mapError_eq_error.mp hc
    exact exit_loadFailure _ _ e
  | ok c =>
    rw [hc, ok_bind] at h
    cases hv : (Value.ofFile files sample).mapError (loadFailure "example config" sample) with
    | error g =>
      rw [hv] at h
      cases h
      obtain ⟨e, _, rfl⟩ := mapError_eq_error.mp hv
      exact exit_loadFailure _ _ e
    | ok v =>
      rw [hv] at h
      cases h

theorem exists_error_iff :
    (∃ f, loadBoth (.ofOctets octets) component sample = .error f) ↔
      ¬ ∃ c v, Loads octets component sample c v := by
  simp only [← loadBoth_eq_ok]
  cases loadBoth (.ofOctets octets) component sample with
  | error f => simp
  | ok pair =>
    obtain ⟨c, v⟩ := pair
    exact iff_of_false (by simp) (fun hnone => hnone ⟨c, v, rfl⟩)

end

theorem exit_schema (e : SchemaError) :
    (Failure.ofRender (.component (.schema e))).exit = .general ∨
      (Failure.ofRender (.component (.schema e))).exit = .validation := by
  rw [Failure.exit_ofRender]
  cases e with
  | unwritable => exact .inl rfl
  | undeclared | unrecognized | untyped | notMapping | invalidSchema => exact .inr rfl

namespace ValidateRequest

variable (files : Files) (r : ValidateRequest)

theorem exit_eq :
    (r.run files).exit =
      match loadBoth files r.component r.sample with
      | .error _ => 2
      | .ok (c, v) => if (Validation.ofSample c v).passes r.strict then 0 else 3 := by
  rw [ValidateRequest.run]
  cases hload : loadBoth files r.component r.sample with
  | error f => exact congrArg ExitCode.toNat (exit_of_loadBoth_eq_error hload)
  | ok pair =>
    obtain ⟨c, v⟩ := pair
    dsimp only
    split
    · rfl
    · exact congrArg ExitCode.toNat (Failure.exit_invalid c.category c.name)

theorem exit_eq_two_iff :
    (r.run files).exit = 2 ↔ ∃ f, loadBoth files r.component r.sample = .error f := by
  rw [exit_eq]
  cases loadBoth files r.component r.sample with
  | error f => simp
  | ok pair =>
    obtain ⟨c, v⟩ := pair
    dsimp only
    split <;> simp

variable {files r} in
theorem exit_of_load {c : Component} {v : Value}
    (h : loadBoth files r.component r.sample = .ok (c, v)) :
    ((r.run files).exit = 0 ↔ Passes r.strict c v) ∧
      (¬ Passes r.strict c v → (r.run files).exit = 3) := by
  rw [exit_eq, h, ← passes_iff]
  dsimp only
  split
  · next hpasses => simp [hpasses]
  · next hpasses => simp [hpasses]

end ValidateRequest

namespace RenderRequest

variable (files : Files) {r : RenderRequest} (h : r.config = none)

include h

theorem run_eq :
    r.run files =
      match loadBoth files r.component r.sample with
      | .error f => .failure "" f
      | .ok (c, v) =>
        match Context.build { nest := r.nest } c v with
        | .error e => .failure "" (.ofRender (.component (.schema e)))
        | .ok context => .success (if r.asJson then context.json else Layout.plain context) := by
  have hsettings : r.settings files = .ok { nest := r.nest } := by
    rw [RenderRequest.settings, h]
  rw [RenderRequest.run, RenderRequest.text, hsettings, ok_bind]
  cases loadBoth files r.component r.sample with
  | error f => rfl
  | ok pair =>
    obtain ⟨c, v⟩ := pair
    rw [ok_bind]
    dsimp only
    rw [document_eq]
    cases Context.build { nest := r.nest } c v <;> cases r.asJson <;> rfl

theorem outcome :
    (r.run files).exit ≠ 4 ∧ ((r.run files).exit ≠ 0 → (r.run files).output = "") ∧
      ((r.run files).exit = 2 ↔ ∃ f, loadBoth files r.component r.sample = .error f) := by
  rw [run_eq files h]
  cases hload : loadBoth files r.component r.sample with
  | error f =>
    have hexit : f.exit = .arguments := exit_of_loadBoth_eq_error hload
    simp [Outcome.failure, hexit, ExitCode.toNat]
  | ok pair =>
    obtain ⟨c, v⟩ := pair
    dsimp only
    cases Context.build { nest := r.nest } c v with
    | error e =>
      rcases exit_schema e with hexit | hexit <;>
        simp [Outcome.failure, hexit, ExitCode.toNat]
    | ok context => simp [Outcome.success, ExitCode.toNat]

theorem exit_congr (asJson : Bool) :
    (RenderRequest.run files { r with asJson }).exit = (r.run files).exit := by
  rw [run_eq files h, run_eq files (r := { r with asJson }) h]
  cases loadBoth files r.component r.sample with
  | error f => rfl
  | ok pair =>
    obtain ⟨c, v⟩ := pair
    dsimp only
    cases Context.build { nest := r.nest } c v <;> rfl

end RenderRequest

/-- On the same two files, whatever they hold: a validation exits with 2, 0 or 3, and a rendering exits
with 2 exactly if the validation does, never with 4, alike for both kinds of output, and writes nothing
unless it exits with 0. -/
theorem run_exits {octets : String → Except FileError (List UInt8)}
    {component sample : String} {strict nest : Bool} {validating rendering printing : List String}
    (hvalidate : Request.ofWords {} validating = some (.validate ⟨component, sample, strict⟩))
    (hrender : Request.ofWords {} rendering = some (.render ⟨component, sample, none, nest, false⟩))
    (hprint : Request.ofWords {} printing = some (.render ⟨component, sample, none, nest, true⟩)) :
    ((run (.ofOctets octets) {} validating).exit = 2 ↔
      ¬ ∃ c v, Loads octets component sample c v) ∧
    (∀ c v, Loads octets component sample c v →
      ((run (.ofOctets octets) {} validating).exit = 0 ↔ Passes strict c v) ∧
      (¬ Passes strict c v → (run (.ofOctets octets) {} validating).exit = 3)) ∧
    ((run (.ofOctets octets) {} rendering).exit = 2 ↔
      (run (.ofOctets octets) {} validating).exit = 2) ∧
    (run (.ofOctets octets) {} rendering).exit ≠ 4 ∧
    (run (.ofOctets octets) {} printing).exit = (run (.ofOctets octets) {} rendering).exit ∧
    ∀ words ∈ [rendering, printing], (run (.ofOctets octets) {} words).exit ≠ 0 →
      (run (.ofOctets octets) {} words).output = "" := by
  have hv : run (.ofOctets octets) {} validating =
      ValidateRequest.run (.ofOctets octets) ⟨component, sample, strict⟩ := by
    rw [run, hvalidate]
    rfl
  have hr : run (.ofOctets octets) {} rendering =
      RenderRequest.run (.ofOctets octets) ⟨component, sample, none, nest, false⟩ := by
    rw [run, hrender]
    rfl
  have hp : run (.ofOctets octets) {} printing =
      RenderRequest.run (.ofOctets octets) ⟨component, sample, none, nest, true⟩ := by
    rw [run, hprint]
    rfl
  have hfail := ValidateRequest.exit_eq_two_iff (.ofOctets octets) ⟨component, sample, strict⟩
  obtain ⟨hfour, hsilent, htwo⟩ := RenderRequest.outcome (.ofOctets octets)
    (r := ⟨component, sample, none, nest, false⟩) rfl
  obtain ⟨_, hsilent', _⟩ := RenderRequest.outcome (.ofOctets octets)
    (r := ⟨component, sample, none, nest, true⟩) rfl
  rw [hv, hr, hp]
  refine ⟨hfail.trans exists_error_iff, ?_, htwo.trans hfail.symm, hfour,
    RenderRequest.exit_congr (.ofOctets octets) (r := ⟨component, sample, none, nest, false⟩) rfl true,
    ?_⟩
  · intro c v hloads
    exact ValidateRequest.exit_of_load (loadBoth_eq_ok.mpr hloads)
  · simp only [List.forall_mem_cons, hr, hp]
    exact ⟨hsilent, hsilent', by simp⟩

def specText : String :=
  "name: reader\ntype: sources\nsummary: Reads.\nfields:\n- name: path\n  description: The file.\n"

def twoFiles : String → Except FileError (List UInt8)
  | "spec.yaml" => .ok specText.toUTF8.data.toList
  | "example.yaml" => .ok "path: in\n".toUTF8.data.toList
  | _ => .error .notFound

theorem run_exits_twoFiles :
    (run (.ofOctets twoFiles) {} ["validate", "--strict", "-s", "spec.yaml", "-e", "example.yaml"]).exit
        = 0 ∧
      (run (.ofOctets twoFiles) {} ["-q", "render", "--spec=spec.yaml", "-e", "example.yaml"]).exit
        ≠ 2 := by
  have hloads : ∃ c v, Loads twoFiles "spec.yaml" "example.yaml" c v ∧ Passes true c v := by
    have hpasses : (match Yaml.parseComponent specText, Yaml.parseValue "path: in\n" with
        | .ok c, .ok v => (Validation.ofSample c v).passes true
        | _, _ => false) = true := by
      decide +kernel
    split at hpasses
    · next c v hc hv => exact ⟨c, v, ⟨⟨_, rfl, hc⟩, ⟨_, rfl, hv⟩⟩, passes_iff.mp hpasses⟩
    · cases hpasses
  obtain ⟨c, v, hloads, hpasses⟩ := hloads
  have hv : Request.ofWords {} ["validate", "--strict", "-s", "spec.yaml", "-e", "example.yaml"] =
      some (.validate ⟨"spec.yaml", "example.yaml", true⟩) := by decide +kernel
  have hr : Request.ofWords {} ["-q", "render", "--spec=spec.yaml", "-e", "example.yaml"] =
      some (.render ⟨"spec.yaml", "example.yaml", none, false, false⟩) := by decide +kernel
  have hp : Request.ofWords {} ["render", "-sspec.yaml", "-e", "example.yaml", "--context-json"] =
      some (.render ⟨"spec.yaml", "example.yaml", none, false, true⟩) := by decide +kernel
  obtain ⟨htwo, hload, hrender, _, _, _⟩ := @run_exits twoFiles _ _ _ _ _ _ _ hv hr hp
  refine ⟨(hload c v hloads).1.mpr hpasses, ?_⟩
  intro hexit
  exact htwo.mp (hrender.mp hexit) ⟨c, v, hloads⟩

end Command

end ComponentDoc
