import ComponentDoc.Proofs.Building

set_option autoImplicit false

namespace ComponentDoc

open Schema

def SparesKeys {α : Type} (x : Except SchemaError α) : Prop :=
  ∀ missing, x ≠ .error (.undeclared missing)

theorem SparesKeys.ok {α : Type} (a : α) : SparesKeys (.ok a) := fun _ h => nomatch h

theorem SparesKeys.bind {α β : Type} {x : Except SchemaError α} {f : α → Except SchemaError β}
    (hx : SparesKeys x) (hf : ∀ a, SparesKeys (f a)) : SparesKeys (x >>= f) := by
  cases x with
  | error e => exact fun missing h => hx missing (by cases h; rfl)
  | ok a => exact hf a

theorem Yaml.write_sparesKeys (v : Value) : SparesKeys (Yaml.write v) := by
  intro missing
  unfold write
  split <;> simp

theorem Tiers.extract_sparesKeys (keep : Declaration → Bool) (fs : List Field) (v : Value) :
    SparesKeys (extract keep fs v) := by
  intro missing
  rw [extract_eq]
  split
  · simp
  · split <;> simp

theorem Tiers.split_sparesKeys (fs : List Field) (v : Value) : SparesKeys (split fs v) := by
  unfold split
  split
  · exact SparesKeys.ok _
  · exact (extract_sparesKeys _ fs v).bind (fun a =>
      (extract_sparesKeys _ fs a).bind (fun b => SparesKeys.ok _))

theorem Schema.inferType_sparesKeys (path : String) (d : Declaration) (found : Option Value) :
    SparesKeys (inferType path d found) := by
  intro missing
  unfold inferType
  split
  · simp
  · split <;> simp

namespace Context

theorem writeExamples_sparesKeys (path : String) (vs : List Value) :
    SparesKeys (writeExamples path vs) := by
  induction vs with
  | nil => exact SparesKeys.ok _
  | cons v vs ih =>
    exact (Yaml.write_sparesKeys _).bind (fun _ => ih.bind (fun _ => SparesKeys.ok _))

theorem entry_sparesKeys (config : Config) (full : Value) (f : FlatField) :
    SparesKeys (entry config full f) := by
  unfold entry
  split
  · intro missing
    simp
  · exact (inferType_sparesKeys _ _ _).bind (fun _ =>
      (writeExamples_sparesKeys _ _).bind (fun _ => SparesKeys.ok _))

theorem entries_sparesKeys (config : Config) (full : Value) (fs : List FlatField) :
    SparesKeys (entries config full fs) := by
  induction fs with
  | nil => exact SparesKeys.ok _
  | cons f fs ih =>
    exact (entry_sparesKeys config full f).bind (fun _ => ih.bind (fun _ => SparesKeys.ok _))

theorem ofExample_sparesKeys (c : Component) (root : String) (full : Value) :
    SparesKeys (ExampleBlocks.ofExample c root full) := by
  refine (Tiers.split_sparesKeys c.fields full).bind (fun t =>
    (Yaml.write_sparesKeys _).bind (fun a => ?_))
  cases hc : c.hasSchema with
  | false => exact SparesKeys.ok _
  | true => exact (Yaml.write_sparesKeys _).bind (fun _ => SparesKeys.ok _)

/-- Only reconciliation reports undeclared keys, so a consistent example never fails for them. -/
theorem build_sparesKeys (config : Config) {c : Component} {sample full : Value}
    (hne : c.fields ≠ []) (hn : sample.normalize = .ok full)
    (hc : (reconcile c.fields full).isConsistent = true) : SparesKeys (build config c sample) := by
  have hmissing : (reconcile c.fields full).missing = [] := by
    simpa [Reconciliation.isConsistent] using hc
  have hflat : SparesKeys (flatFields c full) := by
    rw [flatFields_eq hne, if_pos hmissing]
    exact SparesKeys.ok _
  unfold build
  rw [hn]
  exact (ofExample_sparesKeys c (root config c) full).bind (fun _ => hflat.bind (fun _ =>
    (entries_sparesKeys config full _).bind (fun _ => SparesKeys.ok _)))

end Context

end ComponentDoc
