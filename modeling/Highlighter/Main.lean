/-
The commands on standard input and output.  `main` lists a document, and `pageMain`
shows it as a page.
-/
import Highlighter.Command

namespace Highlighter
namespace Command

/-- Reads a stream to its end, after what has been read of it. -/
partial def readAll (stream : IO.FS.Stream) (before : ByteArray) : IO ByteArray := do
  let chunk ← stream.read 65536
  if chunk.isEmpty then return before
  readAll stream (before ++ chunk)

def run (command : List UInt8 → Outcome) : IO UInt32 := do
  let input ← readAll (← IO.getStdin) .empty
  let outcome := command input.toList
  match outcome with
  | .ok t => (← IO.getStdout).write (String.ofList t).toUTF8
  | .error e => (← IO.getStderr).putStrLn (String.ofList e.message)
  return UInt32.ofNat (Outcome.exitCode outcome)

def pageMain (arguments : List String) : IO UInt32 := run (page (arguments.map String.toList))

end Command
end Highlighter

def main : IO UInt32 := Highlighter.Command.run Highlighter.Command.listing
