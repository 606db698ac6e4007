/-!
The words of a command line. Two hyphens come before a switch named in full, one hyphen before a
cluster of letters, and every other word is an operand; a hyphen by itself is an operand too. A value
follows its switch: behind an equals sign, in the rest of the cluster, or as the next word if that is an
operand. Reading a command line gives a mark for each switch, and stops at the first operand.
-/

set_option autoImplicit false

namespace ComponentDoc.Command

/-- A switch of a command: its name in full, its letter, and whether it takes a value. -/
structure Switch where
  name : String
  letter : Option Char := none
  takesValue : Bool := false
  deriving DecidableEq

/-- What a command line says in one place. An operand comes with the words after it. -/
inductive Mark where
  | flag (name : String)
  | value (name text : String)
  | operand (word : String) (rest : List String)
  | malformed
  deriving DecidableEq

def isOperand : List Char → Bool
  | ['-'] => true
  | '-' :: _ => false
  | _ => true

structure Reading where
  marks : List Mark
  awaiting : Option String := none

def readName (switches : List Switch) (word : List Char) : Reading :=
  let name := word.takeWhile (· != '=')
  match switches.find? (fun s => s.name.toList == name), word.drop name.length with
  | none, _ => ⟨[.malformed], none⟩
  | some s, [] => if s.takesValue then ⟨[], some s.name⟩ else ⟨[.flag s.name], none⟩
  | some s, _ :: text =>
    ⟨[if s.takesValue then .value s.name (String.ofList text) else .malformed], none⟩

/-- A cluster of letters. A letter that takes a value has the rest of the cluster for it, less one equals
sign in front. -/
def readCluster (switches : List Switch) : List Char → Reading
  | [] => ⟨[], none⟩
  | c :: cs =>
    match switches.find? (fun s => s.letter == some c) with
    | none => ⟨[.malformed], none⟩
    | some s =>
      if s.takesValue then
        match cs with
        | [] => ⟨[], some s.name⟩
        | '=' :: text => ⟨[.value s.name (String.ofList text)], none⟩
        | text => ⟨[.value s.name (String.ofList text)], none⟩
      else
        let r := readCluster switches cs
        ⟨.flag s.name :: r.marks, r.awaiting⟩

def readWord (switches : List Switch) : List Char → Reading
  | '-' :: '-' :: name => readName switches name
  | '-' :: letters => readCluster switches letters
  | _ => ⟨[.malformed], none⟩

def marks (switches : List Switch) : List String → List Mark
  | [] => []
  | word :: rest =>
    if word = "--" then (if rest.isEmpty then [] else [.malformed])
    else if isOperand word.toList then [.operand word rest]
    else
      let r := readWord switches word.toList
      match r.awaiting with
      | none => r.marks ++ marks switches rest
      | some name =>
        match rest with
        | [] => r.marks ++ [.malformed]
        | text :: rest =>
          if isOperand text.toList then r.marks ++ .value name text :: marks switches rest
          else r.marks ++ [.malformed]

structure Given where
  flags : List String := []
  values : List (String × String) := []

inductive Halt where
  | version
  | help
  | rejected
  deriving DecidableEq

/-- Collects the switches up to the first mark that decides otherwise, with the operand if there is one.
A switch may not come twice, and no value is empty. -/
def Given.collect (g : Given) : List Mark → Except Halt (Given × Option (String × List String))
  | [] => .ok (g, none)
  | .flag name :: ms =>
    if name = "version" then .error .version
    else if name = "help" then .error .help
    else if name ∈ g.flags then .error .rejected
    else collect { g with flags := name :: g.flags } ms
  | .value name text :: ms =>
    if text = "" ∨ (g.values.lookup name).isSome then .error .rejected
    else collect { g with values := (name, text) :: g.values } ms
  | .operand word rest :: _ => .ok (g, some (word, rest))
  | .malformed :: _ => .error .rejected

end ComponentDoc.Command
