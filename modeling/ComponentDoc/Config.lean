import ComponentDoc.Files
import ComponentDoc.Toml.Document
import ComponentDoc.Yaml.Decoder

set_option autoImplicit false

namespace ComponentDoc

structure Config where
  nest : Bool := false
  missingDescription : String := "Sorry! This field is missing documentation."
  interpolationDocsUrl : String := "/docs/configuration/interpolation#functions"
  sourceHint : String := "components/\x7b\x7btype\x7d\x7d/\x7b\x7bname\x7d\x7d.yaml"
  deriving DecidableEq, Inhabited

inductive ConfigError where
  | unreadable (path : String) (cause : FileError)
  | unsupported (path extension : String)
  | yaml (cause : Yaml.ReadError)
  | toml
  deriving DecidableEq

namespace Config
open Yaml (Decoder Member Node ReadError Source Trail)

def yamlMember (src : Source) : String → Option (Member Config)
  | "nest" => some (Yaml.storing (Yaml.readBool src) (fun b c => { c with nest := b }))
  | "missing_description" =>
    some (Yaml.storing (Yaml.readText src) (fun s c => { c with missingDescription := s }))
  | "interpolation_docs_url" =>
    some (Yaml.storing (Yaml.readText src) (fun s c => { c with interpolationDocsUrl := s }))
  | "source_hint" => some (Yaml.storing (Yaml.readText src) (fun s c => { c with sourceHint := s }))
  | _ => none

def readYaml (src : Source) (place : Trail) (n : Node) : Decoder Config :=
  Yaml.readRecord src place .config (some (yamlMember src)) [] {} n

def parseYaml (text : String) : Except ReadError Config := Yaml.decode readYaml text

def tomlString (es : Toml.Entries) (key default : String) : Option String :=
  match es.lookup key with
  | none => some default
  | some (.string s) => some s
  | some _ => none

def tomlBool (es : Toml.Entries) (key : String) (default : Bool) : Option Bool :=
  match es.lookup key with
  | none => some default
  | some (.bool b) => some b
  | some _ => none

def ofEntries (es : Toml.Entries) : Option Config := do
  let d : Config := {}
  let nest ← tomlBool es "nest" d.nest
  let missingDescription ← tomlString es "missing_description" d.missingDescription
  let interpolationDocsUrl ← tomlString es "interpolation_docs_url" d.interpolationDocsUrl
  let sourceHint ← tomlString es "source_hint" d.sourceHint
  return { nest, missingDescription, interpolationDocsUrl, sourceHint }

def parseToml (text : String) : Option Config := (Toml.parse text).bind ofEntries

def ofText (path text : String) : Except ConfigError Config :=
  let extension := (Files.extension path).getD ""
  if extension = "toml" then
    match parseToml text with
    | some c => .ok c
    | none => .error .toml
  else if extension = "yaml" ∨ extension = "yml" then (parseYaml text).mapError .yaml
  else .error (.unsupported path extension)

def ofFile (files : Files) (path : String) : Except ConfigError Config :=
  match files path with
  | .ok text => ofText path text
  | .error e => .error (.unreadable path e)

end Config

def ConfigError.unsupportedMessage (path extension : String) : String :=
  "Invalid render config " ++ path ++ ": unsupported extension " ++ Text.quoted extension

def ConfigError.message : ConfigError → String
  | .unreadable path cause => cause.message path
  | .unsupported path extension => unsupportedMessage path extension
  | .yaml cause => cause.message
  | .toml => "TOML error: ..."

end ComponentDoc
