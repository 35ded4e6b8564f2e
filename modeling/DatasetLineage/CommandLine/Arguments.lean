import DatasetLineage.DatasetId
import DatasetLineage.Document.Content
import DatasetLineage.Text.Digit

/-!
# Arguments of the command line

Arguments are taken one at a time.  An option with a value has it in the same
argument or in the next one; flags can be joined behind one dash; after two dashes
alone everything is an operand.  Every option can be given once, and its value is
checked at once.  Settings that concern every command come before the command.
-/

namespace DatasetLineage

namespace CommandLine

/-- The commands. -/
inductive CommandName where
  | merge
  | extract
  | diff
  | add
  | remove
  | graph
  | init
deriving DecidableEq, Inhabited

/-- The options of the program and of its commands. -/
inductive OptionName where
  | logLevel
  | config
  | format
  | direction
  | maxDepth
  | output
  | snapshot
  | root
  | existing
  | allowUpdates
  | store
  | dot
  | configFile
  | force
deriving DecidableEq, Inhabited

namespace CommandName

def ofText? : String → Option CommandName
  | "merge" => some .merge
  | "extract" => some .extract
  | "diff" => some .diff
  | "add" => some .add
  | "remove" => some .remove
  | "graph" => some .graph
  | "init" => some .init
  | _ => none

def options : CommandName → List OptionName
  | .merge => [.direction, .maxDepth, .output]
  | .extract => [.snapshot, .root, .direction, .maxDepth, .output]
  | .diff => [.snapshot, .existing, .allowUpdates]
  | .add => [.store, .direction, .maxDepth, .allowUpdates]
  | .remove => [.store, .root, .direction, .maxDepth]
  | .graph => [.snapshot, .dot]
  | .init => [.configFile, .force]

/-- Whether a command works on operands, which are the paths of trees. -/
def takesTrees : CommandName → Bool
  | .merge | .add => true
  | _ => false

end CommandName

namespace OptionName

def general : List OptionName := [.logLevel, .config, .format]

def long : OptionName → String
  | .logLevel => "log-level"
  | .config => "config"
  | .format => "format"
  | .direction => "direction"
  | .maxDepth => "max-depth"
  | .output => "output"
  | .snapshot => "snapshot"
  | .root => "root"
  | .existing => "existing"
  | .allowUpdates => "allow-updates"
  | .store => "store"
  | .dot => "dot"
  | .configFile => "config-file"
  | .force => "force"

def short? : OptionName → Option Char
  | .logLevel => some 'l'
  | .config => some 'c'
  | .format => none
  | .direction => some 'd'
  | .maxDepth => some 'm'
  | .output => some 'o'
  | .snapshot => some 's'
  | .root => some 'r'
  | .existing => some 'e'
  | .allowUpdates => some 'a'
  | .store => some 's'
  | .dot => none
  | .configFile => some 'c'
  | .force => none

/-- Whether an option stands without a value. -/
def isFlag : OptionName → Bool
  | .allowUpdates | .dot | .force => true
  | _ => false

def accepts (name : OptionName) (value : String) : Bool :=
  match name with
  | .logLevel | .allowUpdates | .dot | .force => true
  | .format => (Format.ofName? value).isSome
  | .direction => (Direction.ofText value).isOk
  | .maxDepth => (Text.wordOfText? value).isSome
  | .root => (DatasetId.ofText? value).isSome
  | .config | .output | .snapshot | .existing | .store | .configFile => value ≠ ""

end OptionName

/-- Why arguments are not carried out. -/
inductive Stop where
  /-- They are not well formed. -/
  | misuse
  /-- They ask how the program is used. -/
  | help
  /-- They ask for the version of the program. -/
  | version
deriving DecidableEq

/-- The arguments taken so far. -/
structure Reading where
  command : Option CommandName := none
  /-- The options that were given, with their values; a flag has an empty one. -/
  given : List (OptionName × String) := []
  operands : List String := []
  /-- The option whose value has to come next. -/
  awaited : Option OptionName := none
  /-- Whether everything else is an operand. -/
  operandsOnly : Bool := false
deriving Inhabited

namespace Reading

def options (reading : Reading) : List OptionName :=
  match reading.command with
  | none => OptionName.general
  | some command => command.options

def give (reading : Reading) (name : OptionName) (value : String) :
    Except Stop Reading :=
  if (reading.given.lookup name).isSome || !name.accepts value then .error .misuse
  else .ok { reading with given := (name, value) :: reading.given, awaited := none }

/-- Take an option whose value, if it has one, is still to come. -/
def start (reading : Reading) (name : OptionName) : Except Stop Reading :=
  if name.isFlag then reading.give name "" else .ok { reading with awaited := some name }

/-- Take an option given by its long name, with the value that is attached to it. -/
def takeLong (reading : Reading) (name : String) (value : Option String) :
    Except Stop Reading :=
  if name = "help" ∧ value = none then .error .help
  else if name = "version" ∧ value = none ∧ reading.command = none then .error .version
  else
    match reading.options.find? fun option => option.long = name, value with
    | some option, none => reading.start option
    | some option, some value =>
        if option.isFlag then .error .misuse else reading.give option value
    | none, _ => .error .misuse

/-- Take options given by their letters; the rest behind an option with a value is
its value. -/
def takeLetters (reading : Reading) : List Char → Except Stop Reading
  | [] => .ok reading
  | letter :: rest =>
      if letter = 'h' then .error .help
      else if letter = 'V' ∧ reading.command = none then .error .version
      else
        match reading.options.find? fun option => option.short? = some letter with
        | none => .error .misuse
        | some option =>
            if option.isFlag then do
              let next ← reading.give option ""
              takeLetters next rest
            else
              match rest with
              | [] => reading.start option
              | '=' :: value => reading.give option (String.ofList value)
              | value => reading.give option (String.ofList value)

/-- Take an operand: the command, or the path of a tree. -/
def takeOperand (reading : Reading) (argument : String) : Except Stop Reading :=
  match reading.command with
  | none =>
      if reading.operandsOnly then .error .misuse
      else
        match CommandName.ofText? argument with
        | some command => .ok { reading with command := some command }
        | none => .error .misuse
  | some command =>
      if command.takesTrees && argument ≠ "" then
        .ok { reading with operands := reading.operands ++ [argument] }
      else .error .misuse

def isOption (argument : String) : Bool :=
  argument.startsWith "-" && argument ≠ "-"

def take (reading : Reading) (argument : String) : Except Stop Reading :=
  match reading.awaited with
  | some name => if isOption argument then .error .misuse else reading.give name argument
  | none =>
      if reading.operandsOnly || !isOption argument then reading.takeOperand argument
      else if argument = "--" then .ok { reading with operandsOnly := true }
      else if argument.startsWith "--" then
        let (name, value) := (argument.toList.drop 2).span (· ≠ '=')
        let attached := if value.isEmpty then none else some (String.ofList (value.drop 1))
        reading.takeLong (String.ofList name) attached
      else reading.takeLetters (argument.toList.drop 1)

end Reading

/-- A command with what it works on. -/
inductive Command where
  | merge (trees : List String) (direction : Direction) (depth : Option Nat)
      (output : Option String)
  | extract (snapshot : String) (root : DatasetId) (direction : Direction)
      (depth : Option Nat) (output : Option String)
  | diff (snapshot : String) (existing : Option String) (allowUpdates : Bool)
  | add (store : String) (trees : List String) (direction : Direction)
      (depth : Option Nat) (allowUpdates : Bool)
  | remove (store : String) (root : DatasetId) (direction : Direction) (depth : Nat)
  | graph (snapshot : String) (drawing : Bool)
  | init (path : String) (force : Bool)
deriving Inhabited

/-- What the program is asked to do. -/
structure Invocation where
  /-- The file with the settings, if one is named. -/
  settingsPath : Option String
  /-- The format of results, if it is given. -/
  format : Option Format
  command : Command
deriving Inhabited

namespace Command

/-- The files that a command may read or write. -/
def paths : Command → List String
  | .merge trees _ _ output => trees ++ output.toList
  | .extract snapshot _ _ _ output => snapshot :: output.toList
  | .diff snapshot existing _ => snapshot :: existing.toList
  | .add store trees _ _ _ => store :: trees
  | .remove store _ _ _ => [store]
  | .graph snapshot _ => [snapshot]
  | .init path _ => [path]

end Command

def Invocation.paths (invocation : Invocation) : List String :=
  invocation.settingsPath.toList ++ invocation.command.paths

namespace Reading

def value? (reading : Reading) (name : OptionName) : Option String :=
  reading.given.lookup name

def isGiven (reading : Reading) (name : OptionName) : Bool :=
  (reading.value? name).isSome

/-- The direction that is given, and otherwise that of sources. -/
def direction (reading : Reading) : Direction :=
  match (reading.value? .direction).map Direction.ofText with
  | some (.ok direction) => direction
  | _ => .sources

def depth? (reading : Reading) : Option Nat := do
  Text.wordOfText? (← reading.value? .maxDepth)

def root? (reading : Reading) : Option DatasetId := do
  DatasetId.ofText? (← reading.value? .root)

/-- The paths of trees; there has to be one at least. -/
def trees? (reading : Reading) : Option (List String) :=
  if reading.operands.isEmpty then none else some reading.operands

def command? (reading : Reading) : Option Command := do
  match ← reading.command with
  | .merge =>
      some (.merge (← reading.trees?) reading.direction reading.depth?
        (reading.value? .output))
  | .extract =>
      some (.extract (← reading.value? .snapshot) (← reading.root?) reading.direction
        reading.depth? (reading.value? .output))
  | .diff =>
      some (.diff (← reading.value? .snapshot) (reading.value? .existing)
        (reading.isGiven .allowUpdates))
  | .add =>
      some (.add (← reading.value? .store) (← reading.trees?) reading.direction
        reading.depth? (reading.isGiven .allowUpdates))
  | .remove =>
      some (.remove (← reading.value? .store) (← reading.root?) reading.direction
        (reading.depth?.getD 0))
  | .graph => some (.graph (← reading.value? .snapshot) (reading.isGiven .dot))
  | .init =>
      some (.init ((reading.value? .configFile).getD "dc-lineage.yml")
        (reading.isGiven .force))

def finish (reading : Reading) : Except Stop Invocation :=
  match reading.awaited, reading.command? with
  | none, some command =>
      .ok
        { settingsPath := reading.value? .config
          format := (reading.value? .format).bind Format.ofName?
          command }
  | _, _ => .error .misuse

end Reading

/-- What the arguments after `help` ask for: help on the program, or on one of its
commands. -/
def helpOn : List String → Stop
  | [] => .help
  | [topic] => if topic = "help" ∨ (CommandName.ofText? topic).isSome then .help else .misuse
  | _ => .misuse

namespace Reading

def expectsCommand (reading : Reading) : Bool :=
  reading.command.isNone && reading.awaited.isNone && !reading.operandsOnly

/-- Take arguments one after the other, up to a `help` in place of the command. -/
def takeAll (reading : Reading) : List String → Except Stop Reading
  | [] => .ok reading
  | argument :: rest =>
      if reading.expectsCommand && argument = "help" then .error (helpOn rest)
      else
        match reading.take argument with
        | .ok next => takeAll next rest
        | .error stop => .error stop

end Reading

def Invocation.ofArguments (arguments : List String) : Except Stop Invocation := do
  let reading ← Reading.takeAll {} arguments
  reading.finish

end CommandLine

end DatasetLineage
