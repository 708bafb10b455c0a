import HttpSuite.CommandLine.Arguments
import HttpSuite.Outline
import HttpSuite.Trace

/-!
# The programs

The compiler and the tracer on the files of the machine.
-/

namespace HttpSuite

/-- The trouble that the system reports. -/
def FileFault.ofSystem : IO.Error → FileFault
  | .noFileOrDirectory .. => .noSuchFile
  | .permissionDenied .. => ⟨.denied, "Permission denied (os error 13)"⟩
  | e => ⟨.other, e.toString⟩

/-- Reading and writing the files of the machine. -/
def systemFiles : FileAccess IO where
  read path := do
    try return decodeText (← IO.FS.readBinFile path)
    catch e => return .error (.ofSystem e)
  write path text := do
    try return .ok (← IO.FS.writeBinFile path text.toUTF8)
    catch e => return .error (.ofSystem e)

/-- Prints what a run printed, and gives its exit code. -/
def Outcome.deliver (outcome : Outcome) : IO UInt32 := do
  IO.print outcome.stdout
  IO.eprint outcome.stderr
  return outcome.exitCode.toUInt32

/-- The tracer on the files of the machine. -/
def traceMain (arguments : List String) : IO UInt32 := do
  (← Trace.run Program.describe systemFiles arguments).deliver

end HttpSuite

/-- The compiler on the files of the machine. -/
def main (arguments : List String) : IO UInt32 := do
  let settingsPath ← IO.getEnv HttpSuite.CommandLine.settingsVariable
  let outcome ←
    HttpSuite.CommandLine.run .standard HttpSuite.systemFiles settingsPath arguments
  outcome.deliver
