/-
# Schema diagrams on the command line

Reads the files that a request names, carries the request out, and shows what it tells: data and
tables on standard output, notices and log entries on standard error.
-/
import SchemaDiagram.Command.Run
import SchemaDiagram.Command.Terminal

namespace SchemaDiagram

/-- The content of a file: its text, or one character a byte if it holds none. -/
def contentOf (bytes : ByteArray) : List Char :=
  match String.fromUTF8? bytes with
  | some text => text.toList
  | none => bytes.toList.map fun byte => Char.ofNat byte.toNat

/-- The contents of those files that can be read. -/
def readLocations (locations : List Location) : IO Files := do
  let contents ← locations.mapM fun l => do
    match ← (IO.FS.readBinFile l.text).toBaseIO with
    | .ok bytes => return (l, some (contentOf bytes))
    | .error _ => return (l, none)
  return fun l => (contents.lookup l).bind id

/-- Shows a line on standard output, or on standard error. -/
def showLine (stream : IO.FS.Stream) (line : String) : IO Unit :=
  stream.putStrLn (String.ofList (Terminal.styled line.toList))

/-- Shows what a request tells. -/
def showTranscript (t : Transcript) : IO Unit := do
  let output ← IO.getStdout
  let asides ← IO.getStderr
  t.asides.forM (showLine asides)
  t.tables.forM fun table => table.lines.forM (showLine output)
  output.putStr t.output
  output.flush

end SchemaDiagram

open SchemaDiagram in
/-- Gives what the arguments ask for. -/
def main (arguments : List String) : IO UInt32 := do
  match Invocation.ofArguments? arguments with
  | none =>
    IO.eprintln "The arguments fit no command."
    return Request.misuseCode.toUInt32
  | some .help =>
    helpLines.forM IO.println
    return 0
  | some .version =>
    IO.println versionText
    return 0
  | some (.request request) =>
    let files ← readLocations request.locations
    match request.outcome Terminal.console files none with
    | .ok (code, transcript) =>
      showTranscript transcript
      return code.toUInt32
    | .error halt =>
      IO.eprintln halt.message
      return 1
