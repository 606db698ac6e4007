import ComponentDoc.Error
import ComponentDoc.Text.Character
import ComponentDoc.Yaml.ReadComponent

/-!
Files by their paths. A tree of files is given by the names of its files, each with its octets; the
directories are those on the way to them. Reading a file gives its text.
-/

set_option autoImplicit false

namespace ComponentDoc

abbrev Files := String → Except FileError String

structure FileTree where
  files : List (String × List UInt8)

namespace Files

def splitSlashes : List Char → List (List Char)
  | [] => [[]]
  | c :: cs =>
    if c = '/' then [] :: splitSlashes cs
    else match splitSlashes cs with
      | [] => [[c]]
      | s :: ss => (c :: s) :: ss

def parts (path : String) : List (List Char) :=
  (splitSlashes path.toList).filter (fun s => !s.isEmpty && s != ['.'])

/-- The text behind the last dot of a file's name. A dot in front of the name does not count. -/
def extension (path : String) : Option String :=
  match (parts path).getLast? with
  | none => none
  | some name =>
    let after := name.reverse.takeWhile (· != '.')
    let before := name.reverse.drop (after.length + 1)
    if name = ['.', '.'] ∨ before.isEmpty then none else some (String.ofList after.reverse)

end Files

namespace FileTree
open Files

def find (t : FileTree) (place : List (List Char)) : Option (List UInt8) :=
  (t.files.find? (fun f => parts f.1 == place)).map (·.2)

def hasDirectory (t : FileTree) (place : List (List Char)) : Bool :=
  place.isEmpty || t.files.any (fun f => place.isPrefixOf (parts f.1))

def isTooLong (name : List Char) : Bool := decide (255 < Text.octetCount name)

/-- Nothing is known outside of the tree but that there are directories above it. -/
def outside (parts : List (List Char)) : FileError :=
  match parts.find? (fun s => !s.isEmpty && s != ['.'] && s != ['.', '.']) with
  | none => .isDirectory
  | some name => if isTooLong name then .nameTooLong else .notFound

def walk (t : FileTree) (place : List (List Char)) : List (List Char) →
    Except FileError (List UInt8)
  | [] => .error .isDirectory
  | s :: ss =>
    if s.isEmpty ∨ s = ['.'] then walk t place ss
    else if s = ['.', '.'] then
      if place.isEmpty then .error (outside ss) else walk t place.dropLast ss
    else if isTooLong s then .error .nameTooLong
    else
      let place := place ++ [s]
      match t.find place with
      | some octets => if ss.isEmpty then .ok octets else .error .notDirectory
      | none => if t.hasDirectory place then walk t place ss else .error .notFound

def decodeText (octets : List UInt8) : Except FileError String :=
  match String.fromUTF8? ⟨octets.toArray⟩ with
  | some s => .ok s
  | none => .error .notText

/-- Reads a file by its path from the top of the tree. A path has less than 4096 octets, none of them
zero. -/
def read (t : FileTree) : Files := fun path =>
  if path.toList.contains '\x00' then .error .zeroInPath
  else if path = "" then .error .notFound
  else if 4096 ≤ Text.octetCount path.toList then .error .nameTooLong
  else if path.toList.head? = some '/' then .error (outside (splitSlashes path.toList))
  else t.walk [] (splitSlashes path.toList) >>= decodeText

end FileTree

inductive LoadError where
  | unreadable (path : String) (cause : FileError)
  | yaml (cause : Yaml.ReadError)
  deriving DecidableEq

def LoadError.message : LoadError → String
  | .unreadable path cause => cause.message path
  | .yaml cause => cause.message

def Files.load {α : Type} (parse : String → Except Yaml.ReadError α) (files : Files)
    (path : String) : Except LoadError α :=
  match files path with
  | .ok text => (parse text).mapError .yaml
  | .error e => .error (.unreadable path e)

def Component.ofFile (files : Files) (path : String) : Except LoadError Component :=
  files.load Yaml.parseComponent path

def Value.ofFile (files : Files) (path : String) : Except LoadError Value :=
  files.load Yaml.parseValue path

end ComponentDoc
