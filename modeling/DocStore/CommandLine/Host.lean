namespace DocStore.CommandLine

/-- What is found at a path. -/
inductive Entry where
  | absent
  | file
  | directory
  /-- A path that cannot be followed, be it too long or below a file. -/
  | unreachable
deriving DecidableEq, Repr

/-- What the program finds around it, under a monad `μ`. -/
structure Host (μ : Type → Type) where
  environment : μ (Option String)
  /-- The absolute path at which relative ones start. -/
  workingDirectory : μ String
  entry : String → μ Entry
  readFile : String → μ (Option ByteArray)
  writeFile : String → ByteArray → μ Unit
  freshId : μ String

def Host.isDirectory {μ : Type → Type} [Monad μ] (host : Host μ) (path : String) : μ Bool := do
  let entry ← host.entry path
  pure (entry == .directory)

end DocStore.CommandLine
