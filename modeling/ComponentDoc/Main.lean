import ComponentDoc.Command.Outcome

set_option autoImplicit false

namespace ComponentDoc.Command

def fileErrorOf : IO.Error → FileError
  | .noFileOrDirectory _ _ _ => .notFound
  | .inappropriateType _ code _ => if code = 21 then .isDirectory else .notDirectory
  | .permissionDenied _ _ _ => .denied
  | .invalidArgument _ code _ => if code = 36 then .nameTooLong else .unavailable
  | _ => .unavailable

def readFile (path : String) : IO (Except FileError String) := do
  try
    let octets ← IO.FS.readBinFile path
    return match String.fromUTF8? octets with
      | some text => .ok text
      | none => .error .notText
  catch e => return .error (fileErrorOf e)

def readFiles (paths : List String) : IO (List (String × Except FileError String)) :=
  paths.mapM fun path => do return (path, ← readFile path)

end ComponentDoc.Command

open ComponentDoc ComponentDoc.Command in
def main (words : List String) : IO UInt32 := do
  let env : Environment :=
    { config := ← IO.getEnv "CFGDOC_CONFIG", nest := ← IO.getEnv "CFGDOC_NEST" }
  let contents ← readFiles (((Request.ofWords env words).map Request.paths).getD [])
  let outcome := run (fun path => (contents.lookup path).getD (.error .notFound)) env words
  IO.print outcome.output
  IO.eprint outcome.errors
  return outcome.exit.toUInt32
