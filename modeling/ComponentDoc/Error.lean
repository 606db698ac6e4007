set_option autoImplicit false

namespace ComponentDoc

namespace Path

def trimDots (s : String) : String :=
  String.ofList (s.toList.reverse.dropWhile (· == '.')).reverse

def levelName (above : String) : String :=
  if trimDots above = "" then "<root>" else trimDots above

end Path

inductive FileError where
  | notFound
  | notDirectory
  | isDirectory
  | notText
  | nameTooLong
  | zeroInPath
  | denied
  | unavailable
  deriving DecidableEq

def FileError.text : FileError → String
  | .notFound => "No such file or directory (os error 2)"
  | .notDirectory => "Not a directory (os error 20)"
  | .isDirectory => "Is a directory (os error 21)"
  | .notText => "stream did not contain valid UTF-8"
  | .nameTooLong => "File name too long (os error 36)"
  | .zeroInPath => "file name contained an unexpected NUL byte"
  | .denied => "Permission denied (os error 13)"
  | .unavailable => "Input/output error (os error 5)"

def FileError.message (path : String) (e : FileError) : String :=
  "Failed to read " ++ path ++ ": " ++ e.text

inductive SchemaError where
  | undeclared (paths : List String)
  | unrecognized (path : String)
  | untyped (path : String)
  | notMapping (path : String)
  | invalidSchema (component : String) (findings : List String)
  | unwritable
  deriving DecidableEq

/-- The text of a failure. What the writer has to say is not part of it. -/
def SchemaError.message : SchemaError → String
  | .undeclared paths => "spec missing fields: " ++ ", ".intercalate paths
  | .unrecognized path => "unrecognised field '" ++ path ++ "'"
  | .untyped path => "unable to infer type of '" ++ path ++ "'"
  | .notMapping path =>
    "field '" ++ path ++ "' declares children but its example value is not an object"
  | .invalidSchema component findings =>
    "Invalid schema for component " ++ component ++ ": " ++ "; ".intercalate findings
  | .unwritable => "Serialization failed: ..."

end ComponentDoc
