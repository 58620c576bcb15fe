namespace DocStore

inductive Command where
  | insert (document : String)
  | remove (id : String)
  | get (id : String)
  | find (filter : String)
  | findOne (filter : String)
  | keys
deriving DecidableEq, Repr

structure Invocation where
  dir : String
  command : Command
deriving DecidableEq, Repr

/-- Why there is nothing to run. Asking for help or for the version is no failure. -/
inductive UsageError where
  | displayHelp
  | displayVersion
  | nothingGiven
  | missingSubcommand
  | missingRequiredArgument
  | invalidSubcommand
  | unknownArgument
  | invalidValue
  | valueValidation
  | tooManyValues
  | argumentConflict
deriving DecidableEq, Repr

namespace CommandLine

inductive Subcommand where
  | plain (command : Command)
  | withValue (command : String → Command)

def subcommand? (name : String) : Option Subcommand :=
  if name = "insert" then some (.withValue .insert)
  else if name = "remove" then some (.withValue .remove)
  else if name = "get" then some (.withValue .get)
  else if name = "find" then some (.withValue .find)
  else if name = "find-one" then some (.withValue .findOne)
  else if name = "keys" then some (.plain .keys)
  else none

def helpName : String := "help"

def isSubcommandName (name : String) : Bool := name == helpName || (subcommand? name).isSome

inductive Shape where
  /-- Two dashes alone: only values follow. -/
  | escape
  | long (name : List Char) (value : Option (List Char))
  | short (flags : List Char)
  | plain
deriving DecidableEq, Repr

def Shape.of (argument : String) : Shape :=
  match argument.toList with
  | ['-', '-'] => .escape
  | '-' :: '-' :: body =>
    .long (body.takeWhile (· ≠ '='))
      (if '=' ∈ body then some ((body.dropWhile (· ≠ '=')).drop 1) else none)
  | '-' :: c :: flags => .short (c :: flags)
  | _ => .plain

structure Values where
  value : Option String
  /-- Behind two dashes everything is a value. -/
  escaped : Bool

/-- Reads the arguments behind a subcommand: its value, if it has one, and nothing else. -/
def readValue (takesValue : Bool) : Values → List String → Except UsageError (Option String)
  | values, [] =>
    if takesValue && values.value.isNone then .error .missingRequiredArgument else .ok values.value
  | values, argument :: rest =>
    let keep : Except UsageError (Option String) :=
      if takesValue && values.value.isNone then
        readValue takesValue { values with value := some argument } rest
      else .error .unknownArgument
    if values.escaped then keep
    else
      match Shape.of argument with
      | .escape => readValue takesValue { values with escaped := true } rest
      | .long name value =>
        if name = "help".toList then
          .error (if value.isSome then .tooManyValues else .displayHelp)
        else .error .unknownArgument
      | .short flags =>
        .error (if flags.head? = some 'h' then .displayHelp else .unknownArgument)
      | .plain => keep

/-- Reads the rest of the arguments as those of a subcommand. -/
def readSubcommand (rest : List String) : Subcommand → Except UsageError Command
  | .plain command => do
    let _ ← readValue false ⟨none, false⟩ rest
    pure command
  | .withValue command => do
    match ← readValue true ⟨none, false⟩ rest with
    | some value => pure (command value)
    | none => .error .missingRequiredArgument

def helpOn : List String → UsageError
  | [] => .displayHelp
  | [name] => if isSubcommandName name then .displayHelp else .invalidSubcommand
  | _ => .invalidSubcommand

inductive Pending where
  | none
  | awaiting
  | given (value : String)
deriving DecidableEq, Repr

structure Options where
  dir : Option String
  /-- The last use of the option, whose value is checked when the next option comes or at the end. -/
  pending : Pending
  escaped : Bool

namespace Options

/-- Takes a value for the directory; it is given at most once and must exist. -/
def accept (isDirectory : String → Bool) (options : Options) (value : String) :
    Except UsageError Options :=
  if options.dir.isSome then .error .argumentConflict
  else if isDirectory value then .ok { options with dir := some value, pending := .none }
  else .error .valueValidation

def settle (isDirectory : String → Bool) (options : Options) : Except UsageError Options :=
  match options.pending with
  | .none => .ok options
  | .awaiting => .error .invalidValue
  | .given value => accept isDirectory { options with pending := .none } value

def useDir (isDirectory : String → Bool) (options : Options) (attached : Option (List Char)) :
    Except UsageError Options := do
  let options ← settle isDirectory options
  match attached with
  | some value => accept isDirectory options (String.ofList value)
  | none => pure { options with pending := .awaiting }

/-- Settles what came before a flag that only displays something. -/
def display (isDirectory : String → Bool) (options : Options) (what : UsageError) :
    Except UsageError Options := do
  let _ ← settle isDirectory options
  .error what

def useLong (isDirectory : String → Bool) (options : Options) (name : List Char)
    (value : Option (List Char)) : Except UsageError Options :=
  if name = "dir".toList then useDir isDirectory options value
  else if name = "help".toList then
    if value.isSome then .error .tooManyValues else display isDirectory options .displayHelp
  else if name = "version".toList then
    if value.isSome then .error .tooManyValues else display isDirectory options .displayVersion
  else .error .unknownArgument

/-- The first short flag decides: every known one ends the row of flags. -/
def useShort (isDirectory : String → Bool) (options : Options) : List Char → Except UsageError Options
  | 'd' :: [] => useDir isDirectory options none
  | 'd' :: '=' :: value => useDir isDirectory options (some value)
  | 'd' :: value => useDir isDirectory options (some value)
  | 'h' :: _ => display isDirectory options .displayHelp
  | 'V' :: _ => display isDirectory options .displayVersion
  | _ => .error .unknownArgument

/-- The directory after all options, from the environment if no option gave one. -/
def finish (isDirectory : String → Bool) (environment : Option String) (options : Options) :
    Except UsageError (Option String) := do
  let options ← settle isDirectory options
  match options.dir, environment with
  | some dir, _ => pure (some dir)
  | none, none => pure none
  | none, some value => do
    let options ← accept isDirectory options value
    pure options.dir

end Options

/-- Reads the arguments in front of the subcommand, and then those behind it. Faults of the
subcommand come before those of a directory option whose value is still to be checked. -/
def readOptions (isDirectory : String → Bool) (environment : Option String) :
    Options → List String → Except UsageError Invocation
  | options, [] => do
    match ← options.finish isDirectory environment with
    | none => .error .nothingGiven
    | some _ => .error .missingSubcommand
  | options, argument :: rest =>
    if options.escaped then
      .error (if isSubcommandName argument then .unknownArgument else .invalidSubcommand)
    else if options.pending ≠ .awaiting ∧ argument = helpName then .error (helpOn rest)
    else
      let found := if options.pending = .awaiting then none else subcommand? argument
      match found with
      | some subcommand => do
        let command ← readSubcommand rest subcommand
        match ← options.finish isDirectory environment with
        | some dir => pure ⟨dir, command⟩
        | none => .error .missingRequiredArgument
      | none =>
        match Shape.of argument with
        | .escape => readOptions isDirectory environment { options with escaped := true } rest
        | .long name value => do
          let options ← options.useLong isDirectory name value
          readOptions isDirectory environment options rest
        | .short flags => do
          let options ← options.useShort isDirectory flags
          readOptions isDirectory environment options rest
        | .plain =>
          if options.pending = .awaiting then
            readOptions isDirectory environment { options with pending := .given argument } rest
          else .error .invalidSubcommand

def parse (isDirectory : String → Bool) (environment : Option String) (arguments : List String) :
    Except UsageError Invocation :=
  readOptions isDirectory environment ⟨none, .none, false⟩ arguments

end CommandLine

end DocStore
