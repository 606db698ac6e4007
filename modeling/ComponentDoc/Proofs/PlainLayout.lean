import ComponentDoc.Layout
import ComponentDoc.Proofs.Templates

/-!
The built-in layout, once as a template and once as a plain concatenation of texts. Its source reads as
that template, and the template writes that concatenation for every context.
-/

set_option autoImplicit false

namespace ComponentDoc.Layout

def heading (c : Context) : String :=
  "---\ntitle: " ++ c.name ++ "\ntype: " ++ c.category ++ "\n---\n\n" ++
  "<!--\n     THIS FILE IS AUTOGENERATED!\n\n     To make changes " ++
  "please edit the contents of:\n     " ++ c.sourceHint ++ "\n-->\n\n"

def codeBlock (text : String) : String := "```yaml\n" ++ text ++ "```\n"

def tab (value text : String) : String :=
  "<TabItem value=\"" ++ value ++ "\">\n\n" ++ codeBlock text ++ "\n</TabItem>\n"

def tabsHead : String :=
  "\nimport Tabs from '@theme/Tabs';\n\n<Tabs defaultValue=\"common\" values=\x7b[\n" ++
  "  \x7b label: 'Common', value: 'common', \x7d,\n" ++
  "  \x7b label: 'Advanced', value: 'advanced', \x7d,\n" ++
  "]\x7d>\n\nimport TabItem from '@theme/TabItem';\n\n"

def tabs (common advanced : String) : String :=
  tabsHead ++ tab "common" common ++ tab "advanced" advanced ++ "</Tabs>\n"

def exampleBlocks (c : Context) : String :=
  if c.commonConfig = c.advancedConfig then codeBlock c.commonConfig
  else tabs c.commonConfig c.advancedConfig

def quotedOption (option : String) : String := "`" ++ option ++ "`"

def optionsSentence (options : List String) : String :=
  "\nOptions are: " ++ ", ".intercalate (options.map quotedOption) ++ ".\n"

/-- A field's examples in one block of code, with a line end between each and the next. -/
def examplesBlock (examples : List String) : String :=
  "```yaml\n# Examples\n\n" ++ "\n".intercalate examples ++ "```\n\n"

def fieldSection (f : FieldEntry) : String :=
  "### `" ++ f.name ++ "`\n\n`" ++ f.type ++ "` " ++ f.description ++ "\n" ++
  (if f.options = [] then "" else optionsSentence f.options) ++ "\n" ++
  (if f.interpolationNote = "" then "" else f.interpolationNote ++ "\n\n") ++
  (if f.examples = [] then "" else examplesBlock f.examples)

/-- The document of a context, as one text after the other. -/
def plain (c : Context) : String :=
  heading c ++
  (if c.summary = "" then "" else c.summary ++ "\n") ++ "\n" ++
  exampleBlocks c ++
  (if c.description = "" then "" else "\n" ++ c.description ++ "\n") ++ "\n" ++
  (if c.fields = [] then "" else "## Fields\n\n") ++
  String.join (c.fields.map fieldSection) ++ "\n"

section

open Template

def ifFilled (name : String) (members : List String) (part : List Node) : Node :=
  .choose (.compares .unequal (.named name members) (.literal (.text []))) true part []

def ifAny (name : String) (members : List String) (part : List Node) : Node :=
  .choose (.compares .greater (.named name (members ++ ["size"])) (.literal (.int 0))) true part []

def text (s : String) : Node := .text s.toList

def value (name : String) (members : List String) : Node := .output ⟨.named name members, []⟩

/-- Runs over a list with a text in front of every item but the first. -/
def eachSeparated (name : String) (domain : Expr) (sep : String) (body : List Node) : Node :=
  .loop name domain (.choose (.holds (.named "forloop" ["first"])) false [text sep] [] :: body) []

def optionsTemplate : List Node :=
  [text "\nOptions are: ",
    eachSeparated "option" (.named "field" ["options"]) ", " [text "`", value "option" [], text "`"],
    text ".\n"]

def examplesTemplate : List Node :=
  [text "```yaml\n# Examples\n\n",
    eachSeparated "example" (.named "field" ["examples"]) "\n" [value "example" []],
    text "```\n\n"]

def fieldTemplate : List Node :=
  [text "### `", value "field" ["name"], text "`\n\n`", value "field" ["type"], text "` ",
    value "field" ["description"], text "\n",
    ifAny "field" ["options"] optionsTemplate, text "\n",
    ifFilled "field" ["interpolation_note"] [value "field" ["interpolation_note"], text "\n\n"],
    ifAny "field" ["examples"] examplesTemplate]

def blocksTemplate : Node :=
  .choose (.compares .equal (.named "common_config" []) (.named "advanced_config" [])) true
    [text "```yaml\n", value "common_config" [], text "```\n"]
    [text (tabsHead ++ "<TabItem value=\"" ++ "common" ++ "\">\n\n" ++ "```yaml\n"),
      value "common_config" [],
      text ("```\n" ++ "\n</TabItem>\n" ++ "<TabItem value=\"" ++ "advanced" ++ "\">\n\n" ++
        "```yaml\n"),
      value "advanced_config" [], text ("```\n" ++ "\n</TabItem>\n" ++ "</Tabs>\n")]

def template : List Node :=
  [text "---\ntitle: ", value "name" [], text "\ntype: ", value "type" [],
    text ("\n---\n\n" ++ "<!--\n     THIS FILE IS AUTOGENERATED!\n\n     To make changes " ++
      "please edit the contents of:\n     "),
    value "source_hint" [], text "\n-->\n\n",
    ifFilled "summary" [] [value "summary" [], text "\n"], text "\n",
    blocksTemplate,
    ifFilled "description" [] [text "\n", value "description" [], text "\n"], text "\n",
    ifAny "fields" [] [text "## Fields\n\n"],
    .loop "field" (.named "fields" []) fieldTemplate [],
    text "\n"]

theorem map_toList_cons (cs : List Char) (lines : List String) :
    (String.ofList cs :: lines).map String.toList = cs :: lines.map String.toList := by
  rw [List.map_cons, String.toList_ofList]

/-- A source reads as a template if its characters do, which can be computed. -/
theorem parse_eq_of {source : String} {cs : List Char} {ns ms : List Node} (hn : ns = ms)
    (hs : source.toList = cs)
    (h : (match nodes (4 * (elements cs).length + 4) [] (elements cs) with
      | some r => Node.identicalAll r.1 ms
      | none => false) = true) : Template.parse source = some ns := by
  rw [Template.parse, hs]
  split at h
  next r hr => rw [hr, Option.map_some, Node.eq_of_identicalAll h, hn]
  next => cases h

theorem parse_standard : Template.parse standard = some template := by
  -- Texts are taken apart by rewriting: to decode them is what would take long.
  apply parse_eq_of
  case hn =>
    unfold template blocksTemplate fieldTemplate optionsTemplate examplesTemplate tabsHead
    simp only [text, eachSeparated, ifFilled, ifAny, String.toList_append]
    repeat rewrite [String.toList_ofList]
    rfl
  case hs =>
    rewrite [standard, String.toList_intercalate]
    repeat rewrite [map_toList_cons]
    rfl
  case h => decide +kernel

section

variable {f : Frame} {name : String} {members : List String} {part : List Node} {s t : String}

theorem writes_text (f : Frame) (s : String) : (text s).Writes f s := Node.writes_text f s

theorem writes_value (h : (Expr.named name members).eval (f.find []) = some (.text s.toList)) :
    (value name members).Writes f s := Node.writes_output h

theorem writes_ifFilled
    (h : (Expr.named name members).eval (f.find []) = some (.text s.toList))
    (hpart : Writes f part t) : (ifFilled name members part).Writes f (if s = "" then "" else t) := by
  have hc : (Condition.compares .unequal (.named name members) (.literal (.text []))).eval
      (f.find []) = some (s != "") := by
    rw [Condition.eval, h, ← Datum.compareBy_unequal_empty s]
    rfl
  apply Node.writes_choose hc
  by_cases hs : s = ""
  · simpa [hs] using Writes.nil f
  · simpa [hs] using hpart

theorem writes_ifAny {items : List Datum}
    (h : (Expr.named name members).eval (f.find []) = some (.list items))
    (hpart : Writes f part t) :
    (ifAny name members part).Writes f (if items = [] then "" else t) := by
  have hsize : (Expr.named name (members ++ ["size"])).eval (f.find []) =
      some (.int items.length) := by
    rw [Expr.eval_named] at h ⊢
    simp only [List.foldlM_append, ← Option.bind_eq_bind] at h ⊢
    rw [← bind_assoc, h]
    exact Datum.index_size items
  have hc : (Condition.compares .greater (.named name (members ++ ["size"]))
      (.literal (.int 0))).eval (f.find []) = some (!items.isEmpty) := by
    rw [Condition.eval, hsize, ← Datum.compareBy_greater_length items]
    rfl
  apply Node.writes_choose hc
  by_cases hitems : items = []
  · simpa [hitems] using Writes.nil f
  · simpa [hitems] using hpart

theorem writes_eachSeparated {α : Type} {domain : Expr} {as : List α} {datum : α → Datum}
    {sep : String} {item : α → String}
    (hd : domain.eval (f.find []) = some (.list (as.map datum)))
    (hbody : ∀ r a, Writes { f with loops := [("forloop", r), (name, datum a)] ++ f.loops } part
      (item a)) :
    (eachSeparated name domain sep part).Writes f (sep.intercalate (as.map item)) := by
  rw [← join_mapIdx_separated]
  apply Node.writes_loop hd
  intro i a
  have hfirst : (Condition.holds (.named "forloop" ["first"])).eval
      (Frame.find { f with loops := [("forloop", loopRecord (as.map datum).length i
        ((f.loops.lookup "forloop").getD .nil)), (name, datum a)] ++ f.loops } []) =
      some (i == 0) := by
    rw [Condition.eval, Expr.eval_member rfl rfl]
    rfl
  have happend : (if i = 0 then item a else sep ++ item a) =
      (if i = 0 then "" else sep) ++ item a := by split <;> simp
  rw [happend]
  apply Writes.cons (Node.writes_choose hfirst _) (hbody _ a)
  cases i with
  | zero => exact .nil _
  | succ i => exact .single (writes_text _ sep)

end

theorem find_item (f : Frame) (r d : Datum) {name : String} (h : name ≠ "forloop") :
    Frame.find { f with loops := [("forloop", r), (name, d)] ++ f.loops } [] name = some d := by
  have hne : (name == "forloop") = false := beq_eq_false_iff_ne.mpr h
  simp [Frame.find, List.lookup_cons, hne]

theorem writes_item (f : Frame) (r : Datum) {name : String} (s : String) (h : name ≠ "forloop") :
    (value name []).Writes { f with loops := [("forloop", r), (name, .text s.toList)] ++ f.loops }
      s := by
  apply writes_value
  rw [Expr.eval_variable, find_item f r _ h]

section

variable {f : Frame} {e : FieldEntry} (hf : f.find [] "field" = some e.datum)

include hf

theorem eval_options : (Expr.named "field" ["options"]).eval (f.find []) =
    some (.list (e.options.map (fun s => .text s.toList))) :=
  Expr.eval_member hf (by simp [List.lookup_cons])

theorem eval_examples : (Expr.named "field" ["examples"]).eval (f.find []) =
    some (.list (e.examples.map (fun s => .text s.toList))) :=
  Expr.eval_member hf (by simp [List.lookup_cons])

theorem eval_interpolationNote : (Expr.named "field" ["interpolation_note"]).eval (f.find []) =
    some (.text e.interpolationNote.toList) := Expr.eval_member hf (by simp [List.lookup_cons])

theorem writes_optionsTemplate : Writes f optionsTemplate (optionsSentence e.options) := by
  have hquoted : ∀ r (s : String), Writes
      { f with loops := [("forloop", r), ("option", .text s.toList)] ++ f.loops }
      [text "`", value "option" [], text "`"] (quotedOption s) := by
    intro r s
    exact (Writes.cons (writes_text _ "`") (.cons (writes_item f r s (by decide))
      (.single (writes_text _ "`")))).of_eq (String.append_assoc ..).symm
  exact (Writes.cons (writes_text _ _) (.cons (writes_eachSeparated (eval_options hf) hquoted)
    (.single (writes_text _ _)))).of_eq (String.append_assoc ..).symm

theorem writes_examplesTemplate : Writes f examplesTemplate (examplesBlock e.examples) := by
  have hitem : ∀ r (s : String), Writes
      { f with loops := [("forloop", r), ("example", .text s.toList)] ++ f.loops }
      [value "example" []] (id s) := by
    intro r s
    exact .single (writes_item f r s (by decide))
  have hexamples : (eachSeparated "example" (.named "field" ["examples"]) "\n"
      [value "example" []]).Writes f ("\n".intercalate (e.examples.map id)) :=
    writes_eachSeparated (eval_examples hf) hitem
  rw [List.map_id] at hexamples
  exact (Writes.cons (writes_text _ _) (.cons hexamples
    (.single (writes_text _ _)))).of_eq (String.append_assoc ..).symm

theorem writes_fieldTemplate : Writes f fieldTemplate (fieldSection e) := by
  have hname : (value "field" ["name"]).Writes f e.name :=
    writes_value (Expr.eval_member hf (by simp))
  have htype : (value "field" ["type"]).Writes f e.type :=
    writes_value (Expr.eval_member hf (by simp [List.lookup_cons]))
  have hdescription : (value "field" ["description"]).Writes f e.description :=
    writes_value (Expr.eval_member hf (by simp [List.lookup_cons]))
  have hoptions := writes_ifAny (eval_options hf) (writes_optionsTemplate hf)
  have hexamples := writes_ifAny (eval_examples hf) (writes_examplesTemplate hf)
  have hnote := writes_ifFilled (eval_interpolationNote hf)
    (.cons (writes_value (eval_interpolationNote hf)) (.cons (writes_text _ "\n\n") (.nil _)))
  refine (Writes.cons (writes_text _ _) (.cons hname (.cons (writes_text _ _) (.cons htype
    (.cons (writes_text _ _) (.cons hdescription (.cons (writes_text _ _) (.cons hoptions
    (.cons (writes_text _ _) (.cons hnote (.cons hexamples (.nil _)))))))))))).of_eq ?_
  unfold fieldSection
  simp [String.append_assoc]

end

section

variable (c : Context)

def frame : Frame := ⟨[], c.scope⟩

theorem writes_member {name s : String} (h : c.scope.lookup name = some (.text s.toList)) :
    (value name []).Writes (frame c) s := writes_value ((Expr.eval_variable ..).trans h)

theorem writes_blocksTemplate : blocksTemplate.Writes (frame c) (exampleBlocks c) := by
  have hcommon : c.scope.lookup "common_config" = some (.text c.commonConfig.toList) := by
    simp [Context.scope, List.lookup_cons]
  have hadvanced : c.scope.lookup "advanced_config" = some (.text c.advancedConfig.toList) := by
    simp [Context.scope, List.lookup_cons]
  have hc : (Condition.compares .equal (.named "common_config" [])
      (.named "advanced_config" [])).eval ((frame c).find []) =
      some (c.commonConfig == c.advancedConfig) := by
    rw [Condition.eval, Expr.eval_variable, Expr.eval_variable, ← Datum.compareBy_equal_text]
    simp [frame, Frame.find, hcommon, hadvanced]
  apply Node.writes_choose hc
  rw [exampleBlocks]
  by_cases hblocks : c.commonConfig = c.advancedConfig
  · rw [if_pos hblocks, if_pos (beq_iff_eq.mpr hblocks)]
    exact (Writes.cons (writes_text _ _) (.cons (writes_member c hcommon)
      (.single (writes_text _ _)))).of_eq (String.append_assoc ..).symm
  · rw [if_neg hblocks, if_neg (by simpa using hblocks)]
    refine (Writes.cons (writes_text _ _) (.cons (writes_member c hcommon)
      (.cons (writes_text _ _) (.cons (writes_member c hadvanced)
      (.single (writes_text _ _)))))).of_eq ?_
    unfold tabs tab codeBlock
    simp only [String.append_assoc, -String.reduceAppend]

theorem writes_template : Writes (frame c) template (plain c) := by
  have hname : c.scope.lookup "name" = some (.text c.name.toList) := by
    simp [Context.scope]
  have hcategory : c.scope.lookup "type" = some (.text c.category.toList) := by
    simp [Context.scope, List.lookup_cons]
  have hsource : c.scope.lookup "source_hint" = some (.text c.sourceHint.toList) := by
    simp [Context.scope, List.lookup_cons]
  have hsummary : c.scope.lookup "summary" = some (.text c.summary.toList) := by
    simp [Context.scope, List.lookup_cons]
  have hdescription : c.scope.lookup "description" = some (.text c.description.toList) := by
    simp [Context.scope, List.lookup_cons]
  have hfields : (Expr.named "fields" []).eval ((frame c).find []) =
      some (.list (c.fields.map FieldEntry.datum)) := by
    rw [Expr.eval_variable]
    simp [frame, Frame.find, Context.scope, List.lookup_cons]
  have hshowSummary : (ifFilled "summary" [] [value "summary" [], text "\n"]).Writes (frame c)
      (if c.summary = "" then "" else c.summary ++ "\n") :=
    writes_ifFilled ((Expr.eval_variable ..).trans hsummary)
      (.cons (writes_member c hsummary) (.single (writes_text _ _)))
  have hshowDescription :
      (ifFilled "description" [] [text "\n", value "description" [], text "\n"]).Writes (frame c)
        (if c.description = "" then "" else "\n" ++ (c.description ++ "\n")) :=
    writes_ifFilled ((Expr.eval_variable ..).trans hdescription)
      (.cons (writes_text _ _) (.cons (writes_member c hdescription) (.single (writes_text _ _))))
  have hheading := writes_ifAny hfields (.single (writes_text _ "## Fields\n\n"))
  have hsections : (Node.loop "field" (.named "fields" []) fieldTemplate []).Writes (frame c)
      (String.join (c.fields.map fieldSection)) := by
    have heach : c.fields.mapIdx (fun _ => fieldSection) = c.fields.map fieldSection :=
      List.ext_getElem (by simp) (by simp)
    rw [← heach]
    exact Node.writes_loop hfields
      (fun i e => writes_fieldTemplate (find_item (frame c) _ e.datum (by decide)))
  refine (Writes.cons (writes_text _ _) <| .cons (writes_member c hname) <|
    .cons (writes_text _ _) <| .cons (writes_member c hcategory) <|
    .cons (writes_text _ _) <| .cons (writes_member c hsource) <|
    .cons (writes_text _ _) <| .cons hshowSummary <|
    .cons (writes_text _ _) <| .cons (writes_blocksTemplate c) <| .cons hshowDescription <|
    .cons (writes_text _ _) <| .cons hheading <| .cons hsections <|
    .single (writes_text _ _)).of_eq ?_
  unfold plain heading
  simp [String.append_assoc, -String.reduceAppend]

theorem render_template : Template.render c.scope template = some (plain c) := by
  have h := writes_template c
  rw [Writes, frame] at h
  rw [Template.render, h, Option.map_some, String.ofList_toList]

end

end

def unlines (lines : List String) : String := String.join (lines.map (· ++ "\n"))

theorem unlines_cons (line : String) (lines : List String) :
    unlines (line :: lines) = line ++ "\n" ++ unlines lines := by
  rw [unlines, List.map_cons, String.join_cons]
  rfl

theorem unlines_append (lines more : List String) :
    unlines (lines ++ more) = unlines lines ++ unlines more := by
  induction lines with
  | nil => simp [unlines]
  | cons line lines ih =>
    rw [List.cons_append, unlines_cons, unlines_cons, ih, ← String.append_assoc]

/-- A line end between texts of whole lines is an empty line between them. -/
theorem intercalate_unlines (texts : List (List String)) :
    "\n".intercalate (texts.map unlines) = unlines ([""].intercalate texts) := by
  induction texts with
  | nil => rfl
  | cons lines texts ih =>
    cases texts with
    | nil => simp
    | cons next texts =>
      rw [List.map_cons, List.map_cons, String.intercalate_cons_cons, ← List.map_cons, ih,
        List.intercalate_cons_cons, unlines_append, unlines_append]
      rfl

theorem render_standard (c : Context) : render standard c = .ok (plain c) := by
  rw [render, parse_standard]
  simp only [render_template]

/-- The built-in layout never fails, and writes the plain document. Only examples of whole lines have an
empty line between each and the next. -/
theorem render_standard_eq_plain (c : Context) :
    render standard c = .ok (plain c) ∧
    ∀ texts : List (List String), examplesBlock (texts.map unlines) =
      "```yaml\n# Examples\n\n" ++ unlines ([""].intercalate texts) ++ "```\n\n" := by
  refine ⟨render_standard c, fun texts => ?_⟩
  rw [← intercalate_unlines]
  rfl

def letters : Context where
  name := "letters"
  category := "sources"
  summary := ""
  description := ""
  sourceHint := ""
  fields := [⟨"case", "string", "The case.", false, .none, "", ["a", "b"], []⟩]
  commonConfig := "case: a\n"
  advancedConfig := "case: a\n"

/-- Such examples have no empty line between them. -/
theorem render_letters_adjacent :
    ∃ text, render standard letters = .ok text ∧
      text.contains "# Examples\n\na\nb```" = true ∧ text.contains "a\n\nb" = false := by
  refine ⟨plain letters, render_standard letters, ?_, ?_⟩
  · rw [String.contains_string_iff]
    decide +kernel
  · rw [String.contains_string_eq_false_iff]
    decide +kernel

end ComponentDoc.Layout
