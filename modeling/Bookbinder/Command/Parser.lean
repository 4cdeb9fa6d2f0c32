import Bookbinder.Command.Basic
import Bookbinder.Command.Form

/-!
# Reading a command line

A command line is cut into items by the form of its command (`items`): options with their values, and
the operand. The items are then taken one by one (`Given.takeAll`); the first that is wrong decides what
the line is refused for. There is one exception: an operand, or an option whose value is an argument of
its own, is judged only when the next item is known, and an argument that has no meaning at all goes
before it.
-/

namespace Bookbinder

/-- What is wrong with a command line. -/
inductive UsageFault where
  | noCommand
  | unknownCommand
  | unknownArgument
  /-- A value is missing, or empty where it has to be a path. -/
  | missingValue
  | badNumber
  /-- An option that is given twice. -/
  | repeated
  /-- A value for an option that takes none. -/
  | unwantedValue
  | missingOperand
deriving DecidableEq, Repr

/-- Why a command line describes no run. -/
inductive Usage where
  /-- The help of a command is asked for. -/
  | help (form : CommandForm)
  /-- The version is asked for. -/
  | version
  | fault (f : UsageFault)
deriving DecidableEq, Repr

/-! ## Arguments -/

/-- An argument by its looks. -/
inductive Argument where
  /-- Two dashes: no argument after them is an option. -/
  | divider
  | long (name : Text) (value : Option Text)
  | short (names : Text)
  | plain (t : Text)
deriving DecidableEq, Repr

/-- What an argument looks like. A lone dash is plain. -/
def Argument.ofText : Text → Argument
  | ['-', '-'] => divider
  | '-' :: '-' :: body =>
    match splitOnce (· == '=') body with
    | some (name, value) => long name (some value)
    | none => long body none
  | '-' :: c :: cs => short (c :: cs)
  | t => plain t

/-! ## Items -/

/-- A piece of a command line. -/
inductive Item where
  /-- An option; `apart` if its value is, or had to be, an argument of its own. -/
  | option (form : OptionForm) (value : Option Text) (apart : Bool)
  | operand (t : Text)
  | meaningless (f : UsageFault)
deriving DecidableEq, Repr

namespace Item

/-- The item is judged only when the next one is known. -/
def isDeferred : Item → Bool
  | option _ _ apart => apart
  | operand _ => true
  | meaningless _ => false

/-- The items of short options that share one argument, and the option that takes its value from the
next argument. -/
def ofShort (c : CommandForm) : Text → List Item × Option OptionForm
  | [] => ([], none)
  | name :: rest =>
    match c.short? name with
    | none => ([meaningless .unknownArgument], none)
    | some form =>
      if form.takes = .nothing then
        let (items, waiting) := ofShort c rest
        (option form none false :: items, waiting)
      else match rest with
        | [] => ([], some form)
        | value => ([option form (some (stripHead ['='] value)) false], none)

/-- The items of a long option, and the same option if it takes its value from the next argument. -/
def ofLong (c : CommandForm) (name : Text) (value : Option Text) : List Item × Option OptionForm :=
  match c.long? name with
  | none => ([meaningless .unknownArgument], none)
  | some form =>
    if form.takes = .nothing then
      if value.isSome then ([meaningless .unwantedValue], none) else ([option form none false], none)
    else if value.isSome then ([option form value false], none)
    else ([], some form)

/-- The item of a plain argument; `room` if the operand is still to come. -/
def ofPlain (room : Bool) (t : Text) : Item :=
  if room then operand t else meaningless .unknownArgument

/-- The items of arguments that are no options. -/
def ofOperands (room : Bool) : List Text → List Item
  | [] => []
  | t :: rest => ofPlain room t :: ofOperands false rest

/-- The items of arguments; `room` if the operand is still to come, `waiting` the option that takes the
next argument as its value. -/
def ofArguments (c : CommandForm) (room : Bool) (waiting : Option OptionForm) :
    List Text → List Item
  | [] => unmet waiting
  | t :: rest =>
    match Argument.ofText t with
    | .divider => unmet waiting ++ ofOperands room rest
    | .long name value =>
      let (items, waiting') := ofLong c name value
      unmet waiting ++ items ++ ofArguments c room waiting' rest
    | .short names =>
      let (items, waiting') := ofShort c names
      unmet waiting ++ items ++ ofArguments c room waiting' rest
    | .plain t =>
      match waiting with
      | some form => option form (some t) true :: ofArguments c room none rest
      | none => ofPlain room t :: ofArguments c false none rest
where
  /-- The item of an option whose value did not come. -/
  unmet (waiting : Option OptionForm) : List Item :=
    waiting.toList.map fun form => option form none true

end Item

/-! ## Taking items -/

/-- What a command line gives. -/
structure Given where
  operand : Option Text := none
  options : List (OptionKey × Text) := []
deriving DecidableEq, Repr

namespace Given

/-- The values of an option in order. -/
def texts (g : Given) (k : OptionKey) : List Text :=
  (g.options.filter (·.1 == k)).map (·.2)

/-- The value of an option. -/
def text? (g : Given) (k : OptionKey) : Option Text := (g.texts k).head?

/-- The option is given. -/
def has (g : Given) (k : OptionKey) : Bool := (g.text? k).isSome

/-- What is wrong with the value of an option. -/
def valueFault? : ValueKind → Text → Option UsageFault
  | .path, [] => some .missingValue
  | .number, t => if (numberOfText? t).isSome then none else some .badNumber
  | _, _ => none

/-- Takes one item of a line of the command `c`. -/
def take (c : CommandForm) (g : Given) : Item → Except Usage Given
  | .meaningless f => .error (.fault f)
  | .operand t =>
    match valueFault? .path t with
    | some f => .error (.fault f)
    | none => .ok { g with operand := some t }
  | .option form value _ =>
    if form.key = .help then .error (.help c)
    else if form.key = .version then .error .version
    else if form.takes ≠ .nothing ∧ value.isNone then .error (.fault .missingValue)
    else if !form.repeatable && g.has form.key then .error (.fault .repeated)
    else match valueFault? form.takes (value.getD []) with
      | some f => .error (.fault f)
      | none => .ok { g with options := g.options ++ [(form.key, value.getD [])] }

/-- Takes items in order. -/
def takeAll (c : CommandForm) (g : Given) : List Item → Except Usage Given
  | [] => .ok g
  | item :: rest =>
    match g.take c item with
    | .ok g => takeAll c g rest
    | .error u =>
      match item.isDeferred, rest with
      | true, .meaningless f :: _ => .error (.fault f)
      | _, _ => .error u

/-- What the arguments of a command give. -/
def ofArguments (c : CommandForm) (args : List Text) : Except Usage Given :=
  takeAll c {} (Item.ofArguments c c.operand?.isSome none args)

/-- The operand, which has to be given. -/
def requireOperand (g : Given) : Except Usage Text :=
  match g.operand with
  | some t => .ok t
  | none => .error (.fault .missingOperand)

/-- The size of the window. -/
def window (g : Given) : Option Nat := (g.text? .window).bind numberOfText?

end Given

/-! ## Commands -/

namespace Command

/-- Reads the arguments of `build`. -/
def parseBuild (args : List Text) : Except Usage Command := do
  let g ← Given.ofArguments .build args
  return .build {
    path := ← g.requireOperand
    output := g.text? .output
    config := g.text? .config
    includes := g.texts .includes
    excludes := g.texts .excludes
    window := g.window
    noArrowNames := g.has .noArrowNames
    title := g.text? .title
    verbose := g.has .verbose }

/-- Reads the arguments of `inspect`. -/
def parseInspect (args : List Text) : Except Usage Command := do
  let g ← Given.ofArguments .inspect args
  return .inspect {
    file := ← g.requireOperand
    window := g.window
    noArrowNames := g.has .noArrowNames
    comments := g.has .comments }

/-- Reads the arguments of `version`. -/
def parseVersion (args : List Text) : Except Usage Command := do
  let _ ← Given.ofArguments .version args
  return .version

/-- What is asked with `help`: the name of at most one command may follow. -/
def parseHelp : List Text → Usage
  | [] => .help .program
  | [name] =>
    match CommandForm.ofName? name with
    | some form => .help form
    | none => .fault .unknownCommand
  | _ => .fault .unknownCommand

/-- Reads the arguments of the command of a name. -/
def parseNamed (name : Text) (args : List Text) : Except Usage Command :=
  if name = CommandForm.build.name then parseBuild args
  else if name = CommandForm.inspect.name then parseInspect args
  else if name = CommandForm.version.name then parseVersion args
  else if name = CommandForm.help.name then .error (parseHelp args)
  else .error (.fault .unknownCommand)

/-- Reads a command line. A command may not stand behind two dashes. -/
def parse : List Text → Except Usage Command
  | [] => .error (.fault .noCommand)
  | t :: rest =>
    match Argument.ofText t with
    | .plain name => parseNamed name rest
    | .divider =>
      match rest with
      | [] => .error (.fault .noCommand)
      | name :: _ =>
        if (CommandForm.ofName? name).isSome then .error (.fault .unknownArgument)
        else .error (.fault .unknownCommand)
    | .long name value => do
      let _ ← Given.takeAll .program {} (Item.ofLong .program name value).1
      parse rest
    | .short names => do
      let _ ← Given.takeAll .program {} (Item.ofShort .program names).1
      parse rest

end Command

end Bookbinder
