import ComponentDoc.Command.Mark

set_option autoImplicit false

namespace ComponentDoc.Command

structure Environment where
  config : Option String := none
  nest : Option String := none
  deriving DecidableEq

inductive Verb where
  | render
  | validate
  deriving DecidableEq

def Verb.name : Verb → String
  | .render => "render"
  | .validate => "validate"

def Verb.ofName (s : String) : Option Verb :=
  if s = "render" then some .render else if s = "validate" then some .validate else none

structure RenderRequest where
  component : String
  sample : String
  config : Option String := none
  nest : Bool := false
  asJson : Bool := false
  deriving DecidableEq

structure ValidateRequest where
  component : String
  sample : String
  strict : Bool := false
  deriving DecidableEq

inductive Request where
  | version (verb : Option Verb)
  | help
  | render (r : RenderRequest)
  | validate (r : ValidateRequest)
  deriving DecidableEq

def generalSwitches : List Switch :=
  [⟨"verbose", some 'v', false⟩, ⟨"quiet", some 'q', false⟩, ⟨"help", some 'h', false⟩,
    ⟨"version", some 'V', false⟩]

def Verb.switches : Verb → List Switch
  | .render =>
    generalSwitches ++ [⟨"spec", some 's', true⟩, ⟨"example", some 'e', true⟩,
      ⟨"config", some 'c', true⟩, ⟨"nest", none, false⟩, ⟨"context-json", none, false⟩]
  | .validate =>
    generalSwitches ++ [⟨"spec", some 's', true⟩, ⟨"example", some 'e', true⟩,
      ⟨"strict", none, false⟩]

/-- The config that applies: the one given, else the one of the environment, which may not be empty. -/
def Environment.configFor (env : Environment) (given : Option String) : Option (Option String) :=
  match given, env.config with
  | some path, _ => some (some path)
  | none, some "" => none
  | none, path => some path

def Environment.nestFor (env : Environment) (given : Bool) : Option Bool :=
  match given, env.nest with
  | true, _ => some true
  | false, none => some false
  | false, some "true" => some true
  | false, some "false" => some false
  | false, some _ => none

def Verb.request (env : Environment) (g : Given) : Verb → Option Request
  | .render => do
    let component ← g.values.lookup "spec"
    let sample ← g.values.lookup "example"
    let config ← env.configFor (g.values.lookup "config")
    let nest ← env.nestFor (g.flags.contains "nest")
    return .render { component, sample, config, nest, asJson := g.flags.contains "context-json" }
  | .validate => do
    let component ← g.values.lookup "spec"
    let sample ← g.values.lookup "example"
    return .validate { component, sample, strict := g.flags.contains "strict" }

def Halt.request (verb : Option Verb) : Halt → Option Request
  | .version => some (.version verb)
  | .help => some .help
  | .rejected => none

def Verb.ofWords (env : Environment) (verb : Verb) (words : List String) : Option Request :=
  match Given.collect {} (marks verb.switches words) with
  | .error h => h.request (some verb)
  | .ok (g, none) => verb.request env g
  | .ok (_, some _) => none

def helpRequest : List String → Option Request
  | [] => some .help
  | ["help"] => some .help
  | [word] => (Verb.ofName word).map (fun _ => .help)
  | _ => none

def Request.ofWords (env : Environment) (words : List String) : Option Request :=
  match Given.collect {} (marks generalSwitches words) with
  | .error h => h.request none
  | .ok (_, none) => none
  | .ok (_, some (word, rest)) =>
    if word = "help" then helpRequest rest
    else (Verb.ofName word).bind (fun verb => verb.ofWords env rest)

def Request.paths : Request → List String
  | .version _ => []
  | .help => []
  | .render r => r.component :: r.sample :: r.config.toList
  | .validate r => [r.component, r.sample]

end ComponentDoc.Command
