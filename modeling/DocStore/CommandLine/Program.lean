import DocStore.CommandLine.Execute
import DocStore.CommandLine.Storage

namespace DocStore.CommandLine

structure Outcome where
  exitCode : Nat
  output : String
  errors : String
deriving DecidableEq, Repr

def versionText : String := "kq 0.1.0\n"

def usageText : String :=
  "Usage: kq --dir <DIR> <insert DOCUMENT | remove ID | get ID | find FILTER | find-one FILTER | keys>\n"

/-- Help and version are printed with success, wrong arguments are a failure of their own. -/
def Outcome.ofUsage : UsageError → Outcome
  | .displayHelp => ⟨0, usageText, ""⟩
  | .displayVersion => ⟨0, versionText, ""⟩
  | _ => ⟨2, "", usageText⟩

/-- A command prints its output in the pretty form, a failure its message. -/
def Outcome.ofResult : Except AppError Json → Outcome
  | .ok output => ⟨0, output.pretty ++ "\n", ""⟩
  | .error error => ⟨1, "", "error: " ++ error.message ++ "\n"⟩

section

variable {μ : Type → Type} [Monad μ]

/-- The directories among the arguments, so that the arguments can be checked without looking at the
disk again. -/
def existingDirectories (host : Host μ) : List String → μ (List String)
  | [] => pure []
  | path :: rest => do
    let found ← host.isDirectory path
    let others ← existingDirectories host rest
    pure (if found then path :: others else others)

/-- Everything an argument may name as a directory: itself, and what follows an option in it. -/
def candidates (argument : String) : List String :=
  let chars := argument.toList
  [argument, String.ofList (chars.drop 2), String.ofList (chars.drop 3), String.ofList (chars.drop 6)]

def connect (host : Host μ) (settings : DatabaseSettings) : μ (Except DatabaseError Opened) :=
  match Location.ofUrl settings.url, Database.checkWait settings.busyTimeout.toNat with
  | .ok location, .ok _ =>
    if settings.maxConnections = 0 then pure (.error (.connect .cannotOpen))
    else do
      let opened ← openDatabase host location
      pure (opened.mapError .connect)
  | .error error, _ | _, .error error => pure (.error error)

def runCommand (host : Host μ) (settings : Settings) (command : Command) :
    μ (Except AppError Json) := do
  match ← connect host settings.database with
  | .error error => pure (.error (.database error))
  | .ok opened => do
    let fresh ← host.freshId
    let (result, database) := perform settings.collection fresh command opened.database
    match ← saveDatabase host opened database with
    | .ok _ => pure result
    | .error refusal => pure (.error (.database (.execute refusal)))

def run (host : Host μ) (arguments : List String) : μ Outcome := do
  let environment ← host.environment
  let directories ← existingDirectories host
    (environment.toList ++ arguments.flatMap candidates)
  match parse directories.contains environment arguments with
  | .error usage => pure (.ofUsage usage)
  | .ok invocation => do
    let file ← host.readFile (Settings.joinPath invocation.dir Settings.fileName)
    match Settings.ofFile invocation.dir file with
    | .error error => pure (.ofResult (.error error))
    | .ok settings => do
      let result ← runCommand host settings invocation.command
      pure (.ofResult result)

end

end DocStore.CommandLine
