import ComponentDoc.Command.Failure
import ComponentDoc.Command.Request
import ComponentDoc.Command.Validation

set_option autoImplicit false

namespace ComponentDoc.Command

structure Outcome where
  exit : Nat
  output : String
  errors : String
  deriving DecidableEq

namespace Outcome

def success (output : String) : Outcome := ⟨ExitCode.success.toNat, output, ""⟩

def failure (output : String) (f : Failure) : Outcome :=
  ⟨f.exit.toNat, output, "❌ Error: " ++ f.message ++ "\n"⟩

/-- The outcome of a command line that asks for nothing known; what it says of that is left open. -/
def rejected : Outcome := ⟨ExitCode.arguments.toNat, "", "usage"⟩

end Outcome

def loadFailure (what path : String) (e : LoadError) : Failure :=
  (Failure.ofComponent (.load e)).within ("loading " ++ what ++ " " ++ path)

def loadBoth (files : Files) (component sample : String) : Except Failure (Component × Value) := do
  let c ← (Component.ofFile files component).mapError (loadFailure "component spec" component)
  let v ← (Value.ofFile files sample).mapError (loadFailure "example config" sample)
  return (c, v)

namespace RenderRequest

def settings (files : Files) (r : RenderRequest) : Except Failure Config :=
  match r.config with
  | none => .ok { nest := r.nest }
  | some path =>
    match Config.ofFile files path with
    | .ok c => .ok { c with nest := r.nest || c.nest }
    | .error e => .error ((Failure.ofRender (.config e)).within ("loading render config " ++ path))

def text (files : Files) (r : RenderRequest) : Except Failure String := do
  let config ← r.settings files
  let (c, v) ← loadBoth files r.component r.sample
  if r.asJson then
    let context ← (Context.build config c v).mapError (fun e => .ofRender (.component (.schema e)))
    return context.json
  else (document config c v).mapError (fun e => .ofRender (.ofDocument e))

def run (files : Files) (r : RenderRequest) : Outcome :=
  match r.text files with
  | .ok s => .success s
  | .error f => .failure "" f

end RenderRequest

def ValidateRequest.run (files : Files) (r : ValidateRequest) : Outcome :=
  match loadBoth files r.component r.sample with
  | .error f => .failure "" f
  | .ok (c, v) =>
    let validation := Validation.ofSample c v
    let output := String.join ((validation.lines r.strict).map (· ++ "\n"))
    if validation.passes r.strict then .success output
    else .failure output (.ofText ("validation failed for " ++ c.category ++ " " ++ c.name))

def versionText (verb : Option Verb) : String :=
  "cfgdoc" ++ (match verb with
    | none => ""
    | some v => "-" ++ v.name) ++ " 0.1.0\n"

/-- Runs a request. The words of the help are left out. -/
def Request.run (files : Files) : Request → Outcome
  | .version verb => .success (versionText verb)
  | .help => .success ""
  | .render r => r.run files
  | .validate r => r.run files

def run (files : Files) (env : Environment) (words : List String) : Outcome :=
  match Request.ofWords env words with
  | some request => request.run files
  | none => .rejected

end ComponentDoc.Command
