import Bookbinder.Text.Decimal

/-!
# Forms of commands

The options and the operand that each command takes. A form is data: reading a command line and printing
its help both go by it.
-/

namespace Bookbinder

/-- What an option takes. -/
inductive ValueKind where
  | nothing
  | path
  | text
  | number
deriving DecidableEq, Repr

/-- The options. -/
inductive OptionKey where
  | output
  | config
  | includes
  | excludes
  | window
  | noArrowNames
  | title
  | verbose
  | comments
  | help
  | version
deriving DecidableEq, Repr

/-- How an option is written. -/
structure OptionForm where
  key : OptionKey
  long : Text
  short? : Option Char := none
  takes : ValueKind := .nothing
  repeatable : Bool := false
  about : Text
deriving DecidableEq, Repr

/-- The one argument of a command that is no option; it is a path and has to be given. -/
structure OperandForm where
  name : Text
  about : Text
deriving DecidableEq, Repr

/-- How a command is written. -/
structure CommandForm where
  name : Text
  about : Text
  operand? : Option OperandForm := none
  options : List OptionForm := []
deriving DecidableEq, Repr

namespace CommandForm

/-! ## The options -/

def helpOption : OptionForm := { key := .help, long := "help", short? := some 'h', about := "Print help" }

def windowOption : OptionForm :=
  { key := .window, long := "window", takes := .number, about := "Lines inspected after each comment" }

def arrowOption : OptionForm :=
  { key := .noArrowNames
    long := "no-arrow-params"
    about := "Name arrow functions by their declared identifier, not their parameter list" }

/-! ## The commands -/

/-- The program itself, before a command is named. -/
def program : CommandForm :=
  { name := "folio"
    about := "Generate Quarto documentation books from JSDoc comments"
    options := [helpOption,
      { key := .version, long := "version", short? := some 'V', about := "Print version" }] }

def build : CommandForm :=
  { name := "build"
    about := "Extract comments from a project and write a Quarto book"
    operand? := some ⟨"PATH", "Path to the project to document"⟩
    options := [
      { key := .output, long := "output", short? := some 'o', takes := .path,
        about := "Output directory" },
      { key := .config, long := "config", short? := some 'c', takes := .path,
        about := "Config file path (defaults to ./folio.toml)" },
      { key := .includes, long := "include", takes := .text, repeatable := true,
        about := "Glob patterns to include (can be repeated)" },
      { key := .excludes, long := "exclude", takes := .text, repeatable := true,
        about := "Glob patterns to exclude (can be repeated)" },
      windowOption,
      arrowOption,
      { key := .title, long := "title", takes := .text,
        about := "Book title (defaults to the project name or directory name)" },
      { key := .verbose, long := "verbose", short? := some 'v', about := "Verbose output" },
      helpOption] }

def inspect : CommandForm :=
  { name := "inspect"
    about := "Print what each comment in a file links to, as JSON"
    operand? := some ⟨"FILE", "Source file to inspect"⟩
    options := [
      windowOption,
      arrowOption,
      { key := .comments, long := "comments", about := "Include the parsed comment in the output" },
      helpOption] }

def version : CommandForm :=
  { name := "version", about := "Show version information", options := [helpOption] }

def help : CommandForm :=
  { name := "help", about := "Print this message or the help of the given subcommand(s)" }

/-- All commands. -/
def all : List CommandForm := [build, inspect, version, help]

/-- The command of a name. -/
def ofName? (name : Text) : Option CommandForm := all.find? (·.name == name)

/-! ## Look-up -/

/-- The option with a long name. -/
def long? (c : CommandForm) (name : Text) : Option OptionForm := c.options.find? (·.long == name)

/-- The option with a short name. -/
def short? (c : CommandForm) (name : Char) : Option OptionForm :=
  c.options.find? (·.short? == some name)

end CommandForm

/-- The largest number on a command line. -/
def maxNumber : Nat := Nat.pow 2 64 - 1

/-- Reads a number: decimal digits, possibly behind a plus sign, up to `maxNumber`. -/
def numberOfText? (t : Text) : Option Nat :=
  (natOfDigits? 10 (stripHead ['+'] t)).bind fun n => if n ≤ maxNumber then some n else none

end Bookbinder
