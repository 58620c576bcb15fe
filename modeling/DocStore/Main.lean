import DocStore.CommandLine.Program
import DocStore.Text.Uuid

namespace DocStore

open CommandLine

def canOpen (path : String) : IO Bool := do
  try
    let _ ← IO.FS.Handle.mk path .read
    return true
  catch _ => return false

/-- Only directories have an entry called `.`, so opening it tells them from files. -/
def entryOnDisk (path : String) : IO Entry := do
  if path.isEmpty then return .absent
  if ← canOpen (path ++ "/.") then return .directory
  try
    let _ ← IO.FS.Handle.mk path .read
    return .file
  catch
    | .noFileOrDirectory .. => return .absent
    | _ => return .unreachable

def readBytes (path : String) : IO (Option ByteArray) := do
  try
    let bytes ← IO.FS.readBinFile path
    return some bytes
  catch _ => return none

def randomId : IO String := do
  let bytes ← IO.getRandomBytes 16
  return Uuid.ofRandom bytes.toList

def machine : Host IO where
  environment := IO.getEnv "KQ_DIR"
  workingDirectory := do return toString (← IO.currentDir)
  entry := entryOnDisk
  readFile := readBytes
  writeFile path bytes := IO.FS.writeBinFile path bytes
  freshId := randomId

end DocStore

def main (arguments : List String) : IO UInt32 := do
  let outcome ← DocStore.CommandLine.run DocStore.machine arguments
  IO.print outcome.output
  IO.eprint outcome.errors
  return UInt32.ofNat outcome.exitCode
