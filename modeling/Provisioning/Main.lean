import Provisioning.CommandLine

/-! # The program

    Runs the command line on the files of the system.
-/

namespace Provisioning.CommandLine

/-- The text of an error of the system. -/
def systemCause : IO.Error → String
  | .noFileOrDirectory _ code _ => s!"No such file or directory (os error {code})"
  | .permissionDenied _ code _ => s!"Permission denied (os error {code})"
  | .inappropriateType _ code details => s!"{details} (os error {code})"
  | e => toString e

/-- Reads a handle to its end. -/
def readHandle (h : IO.FS.Handle) : IO (Except ReadError String) := do
  match ← h.readBinToEnd.toBaseIO with
  | .ok bytes => return decodeText bytes
  | .error e => return .error (.notRead (systemCause e))

/-- Reads a stream to its end. -/
partial def readStream (s : IO.FS.Stream) (bytes : ByteArray) : IO ByteArray := do
  let more ← s.read 65536
  if more.isEmpty then return bytes else readStream s (bytes ++ more)

/-- The files of the system. -/
def systemFiles : Files IO where
  input := do
    let bytes ← readStream (← IO.getStdin) .empty
    return decodeText bytes
  file path := do
    match ← (IO.FS.Handle.mk path .read).toBaseIO with
    | .ok h => readHandle h
    | .error e => return .error (.notOpened (systemCause e))

end Provisioning.CommandLine

open Provisioning.CommandLine in
/-- Runs the program with the arguments of its call. -/
def main (args : List String) : IO UInt32 := do
  let outcome ← run systemFiles args
  (← IO.getStdout).putStr outcome.output
  (← IO.getStderr).putStr outcome.errors
  return UInt32.ofNat outcome.status
