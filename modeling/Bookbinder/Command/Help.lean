import Bookbinder.Command.Parser

/-!
# Help texts

The help of a command, made from its form, and the wording of what is wrong with a command line.
-/

namespace Bookbinder

/-- The name and version of the program. -/
def versionText : Text := CommandForm.program.name ++ " 0.1.0".toList

/-- Two columns, the second starting behind the widest text of the first. -/
def columns (rows : List (Text × Text)) : List Text :=
  let width := (rows.map (·.1.length)).foldl max 0
  rows.map fun r =>
    "  ".toList ++ r.1 ++ List.replicate (width - r.1.length + 2) ' ' ++ r.2

namespace OptionForm

/-- How an option is shown: its short name, its long name and its value in capitals. -/
def shown (o : OptionForm) : Text :=
  let short := match o.short? with
    | some c => ['-', c, ',', ' ']
    | none => "    ".toList
  let value := if o.takes = .nothing then [] else " <".toList ++ o.long.map Char.toUpper ++ ['>']
  short ++ "--".toList ++ o.long ++ value

end OptionForm

namespace CommandForm

/-- How the operand of a command is shown. -/
def operandShown (c : CommandForm) : Option (Text × Text) :=
  if c.name = help.name then some ("[COMMAND]...", "Print help for the subcommand(s)")
  else c.operand?.map fun o => ('<' :: o.name ++ ['>'], o.about)

/-- The line that shows how a command is written. -/
def usage (c : CommandForm) : Text :=
  let words :=
    if c.name = program.name then [program.name, "<COMMAND>"]
    else [program.name, c.name] ++ (if 1 < c.options.length then ["[OPTIONS]".toList] else []) ++
      (c.operandShown.map (·.1)).toList
  "Usage: ".toList ++ joinWith [' '] words

/-- A headed list of rows, left out when there are none. -/
def helpSection (title : String) (rows : List (Text × Text)) : List Text :=
  if rows.isEmpty then [] else [] :: title.toList :: columns rows

/-- The help of a command. -/
def helpText (c : CommandForm) : Text :=
  let commands := if c.name = program.name then all.map fun f => (f.name, f.about) else []
  let rows := [c.about, [], c.usage] ++ helpSection "Commands:" commands ++
    helpSection "Arguments:" c.operandShown.toList ++
    helpSection "Options:" (c.options.map fun o => (o.shown, o.about))
  rows.flatMap fun row => row ++ ['\n']

end CommandForm

/-- The wording of a fault. -/
def UsageFault.message : UsageFault → Text
  | noCommand => "a command is required"
  | unknownCommand => "unrecognized command"
  | unknownArgument => "unexpected argument"
  | missingValue => "a value is required"
  | badNumber => "invalid number"
  | repeated => "an option cannot be used multiple times"
  | unwantedValue => "an option takes no value"
  | missingOperand => "a required argument was not provided"

end Bookbinder
