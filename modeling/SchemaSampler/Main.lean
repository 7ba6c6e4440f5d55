import SchemaSampler.CommandLine

/-!
# The program

Reads the files that the arguments name, runs the command on their texts, and prints.
-/

namespace SchemaSampler

namespace CommandLine

/-- The text of a file, nothing when it cannot be read. -/
def readFile? (path : String) : IO (Option String) := do
  try
    let text ← IO.FS.readFile path
    pure (some text)
  catch _ => pure none

/-- The paths that a command reads. -/
def Request.paths : Request → List String
  | .sample request => request.schema :: request.config.toList
  | _ => []

/-- The texts of the files that can be read. -/
def readFiles : List String → IO (List (String × String))
  | [] => pure []
  | path :: rest => do
    let text ← readFile? path
    let others ← readFiles rest
    pure (match text with
      | some text => (path, text) :: others
      | none => others)

/-- Carries out the command of the arguments and gives its exit code. -/
def runMain (args : List String) : IO UInt32 := do
  let request := Request.parse false args
  let files ← readFiles request.paths
  let entropy ← IO.rand 0 0xFFFFFFFFFFFFFFFF
  let exit := request.run (fun path => files.lookup path) entropy
  IO.print exit.outcome.output
  match exit.outcome.error with
  | some error => IO.eprintln ("Error: " ++ error.message)
  | none => if exit.code == 2 then IO.eprintln "error: the arguments are not understood"
  pure (UInt32.ofNat exit.code)

end CommandLine

end SchemaSampler

def main (args : List String) : IO UInt32 := SchemaSampler.CommandLine.runMain args
