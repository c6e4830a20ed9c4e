import Foldergram.Command.Run

/-! The program. -/

namespace Foldergram.Command

/-- The system gives the number of an error with or without its sign. -/
def FileFault.ofError : IO.Error → FileFault
  | .noFileOrDirectory _ _ _ => .notFound
  | .inappropriateType _ code _ => if code = 20 ∨ code = -20 then .notDirectory else .isDirectory
  | .permissionDenied _ _ _ => .other "Permission denied (os error 13)"
  | e => .other e.toString

/-- Runs an action and keeps its error as a value. -/
def attempt {α : Type} (action : IO α) : IO (Except FileFault α) := do
  try
    return .ok (← action)
  catch e =>
    return .error (.ofError e)

partial def readAll (stream : IO.FS.Stream) (sofar : ByteArray) : IO ByteArray := do
  let chunk ← stream.read 65536
  if chunk.isEmpty then return sofar else readAll stream (sofar ++ chunk)

/-- Files served by the system. -/
def systemHost : Host IO where
  readFile name := attempt (IO.FS.readBinFile name)
  readInput := attempt (do readAll (← IO.getStdin) .empty)
  writeFile name content := attempt (IO.FS.writeBinFile name content)

end Foldergram.Command

def main (args : List String) : IO UInt32 := do
  let ending ← Foldergram.Command.run Foldergram.Command.systemHost args
  IO.print ending.stdout
  IO.eprint ending.stderr
  return ending.exit.toUInt32
