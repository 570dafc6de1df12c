import ContentProtection.CommandLine

/-!
# The program

Reads the arguments and the file that they name, and prints what the command says.
-/

namespace ContentProtection.CommandLine

def readFile (path : String) : IO (Except SystemFault Bytes) := do
  try
    return .ok (← IO.FS.readBinFile path).toList
  catch _ =>
    return .error .noSuchFile

def runProgram (arguments : List String) : IO UInt32 := do
  let invocation? := Invocation.ofArguments? false arguments
  let file ← match invocation?.bind Invocation.path? with
    | some path => readFile path
    | none => pure (.error .noSuchFile)
  let outcome? := invocation?.map (·.outcome file)
  match outcome? with
  | none => IO.eprintln s!"Usage: {programName} [-d] (hls-key [{hdcp22Flag}] ATTRIBUTES | pssh BASE64 | config PATH)"
  | some outcome =>
    outcome.output.forM fun text => IO.print text
    outcome.failure?.forM fun failure => IO.eprintln s!"Error: {failure}"
  return exitCode outcome?

end ContentProtection.CommandLine

def main (arguments : List String) : IO UInt32 := ContentProtection.CommandLine.runProgram arguments
