import Parlance.Dialogue

/-!
# The command line

The program takes one of two commands, `run` with the path of a source file, and `repl`, or one of
the options for its version and its usage. An argument that begins with a minus sign is an option
unless `--` came before it.

A command is carried out on an input and leaves what it wrote and its exit status. The status is
missing if the run was cut off.
-/

namespace Parlance

/-- What the command line asks for. -/
inductive Command where
  /-- Run a source file. -/
  | run (path : String)
  /-- Hold a dialogue. -/
  | repl
  /-- Show the version. -/
  | version
  /-- Show the usage. -/
  | help
deriving DecidableEq, Repr

namespace Command

/-- Whether an argument is an option; a single minus sign is none. -/
def isOption (argument : String) : Bool :=
  argument.startsWith "-" && argument != "-"

/-- Whether an argument asks for the usage. -/
def asksHelp (argument : String) : Bool :=
  argument == "--help" || argument.startsWith "-h"

/-- The command that follows a subcommand with these positional arguments so far, given what is
made of all of them. Arguments are judged from left to right, so an empty or surplus one is refused
even if a later one asks for the usage. Behind `--` there are no options. -/
def ofPositionals (accepts : List String → Option Command) (limit : Nat) :
    List String → List String → Option Command
  | positionals, [] => accepts positionals
  | positionals, argument :: rest =>
    if argument == "--" then
      if (positionals ++ rest).length ≤ limit then accepts (positionals ++ rest) else none
    else if isOption argument then
      if asksHelp argument then some help else none
    else if positionals.length < limit && !argument.isEmpty then
      ofPositionals accepts limit (positionals ++ [argument]) rest
    else none

/-- The command of a path: it must not be empty. -/
def ofPath : List String → Option Command
  | [path] => if path.isEmpty then none else some (run path)
  | _ => none

/-- The command to hold a dialogue takes no arguments. -/
def ofNothing : List String → Option Command
  | [] => some repl
  | _ => none

/-- What arguments ask for, if they ask for anything. -/
def ofArguments : List String → Option Command
  | [] => none
  | argument :: rest =>
    if argument == "run" then ofPositionals ofPath 1 [] rest
    else if argument == "repl" then ofPositionals ofNothing 0 [] rest
    else if argument == "help" then
      if rest = [] ∨ rest = ["run"] ∨ rest = ["repl"] ∨ rest = ["help"] then some help else none
    else if argument == "--version" || argument.startsWith "-V" then some version
    else if asksHelp argument then some help
    else none

end Command

/-- The text that shows the version. -/
def versionText : String := "msharp 0.1.0\n"

/-- The text that shows the usage. -/
def usageText : String :=
  "Usage: msharp <COMMAND>\n\nCommands:\n  run <FILE>  Runs a source file once\n" ++
    "  repl        Starts an interactive session\n  help        Shows this text\n\n" ++
    "Options:\n  -h, --help     Shows this text\n  -V, --version  Shows the version\n"

/-- What a command leaves behind. -/
structure Completion where
  /-- The exit status, unless the run was cut off. -/
  status : Option Nat
  /-- What was written to the output. -/
  output : ByteArray
  /-- What was written to the error stream. -/
  errors : ByteArray

namespace Completion

/-- The streams of a process: its input, and an output that never fails. -/
def streams (input : Input) : Streams := ⟨input, .empty⟩

/-- Runs the contents of a file; there are none if it could not be read. -/
def ofFile (rounds : Nat) (path : String) (contents : Option ByteArray) (input : Input) :
    Completion :=
  match contents.bind String.fromUTF8? with
  | none =>
    let message := "Failed to read the input file '" ++ path ++
      "'. Perhaps this file does not exist?\n"
    ⟨some 1, .empty, message.toUTF8⟩
  | some source =>
    let (outcome, machine) := (Machine.fresh (streams input)).runSource rounds source
    let written := machine.streams.output.written
    match outcome with
    | .completed => ⟨some 0, written, .empty⟩
    | .failed failure => ⟨some 1, written, ("M# error: " ++ failure.message ++ "\n").toUTF8⟩
    | .unfinished => ⟨none, written, .empty⟩

/-- Holds a dialogue. -/
def ofDialogue (rounds : Nat) (input : Input) : Completion :=
  match Dialogue.converse rounds (Dialogue.begin (.fresh (streams input)) .empty) with
  | .ok () session => ⟨some 0, session.machine.streams.output.written, session.errors.written⟩
  | .error (.failed fault) session =>
    let message := "Error: " ++ fault.message ++ "\n"
    ⟨some 1, session.machine.streams.output.written, session.errors.written ++ message.toUTF8⟩
  | .error .unfinished session =>
    ⟨none, session.machine.streams.output.written, session.errors.written⟩

/-- Carries out a command, given what the files at paths hold. -/
def ofCommand (rounds : Nat) (files : String → Option ByteArray) (command : Command)
    (input : Input) : Completion :=
  match command with
  | .run path => ofFile rounds path (files path) input
  | .repl => ofDialogue rounds input
  | .version => ⟨some 0, versionText.toUTF8, .empty⟩
  | .help => ⟨some 0, usageText.toUTF8, .empty⟩

/-- The completion of a process whose arguments ask for nothing. -/
def ofRefusal : Completion := ⟨some 2, .empty, usageText.toUTF8⟩

end Completion

end Parlance
