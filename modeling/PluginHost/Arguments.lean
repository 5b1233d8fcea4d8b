/-!
# Arguments

A program is called with words, which choose a command and say what it works on.  A `Grammar`
describes the commands of a program: some are grouped under a further command, and each of the
others has options, which are given by name, and operands, which are given by position.  What
is given are the `Values`, of which a command is built.  Words that make no command are a
`UsageError`, and so is the wish for help.
-/

namespace PluginHost

/-- What an argument is: the wish for help, a switch without a value, or an argument with a
value, which is any text, a path, or a truth value. -/
inductive ArgumentKind where
  | help
  | switch
  | text
  | path
  | truth
  deriving DecidableEq, Repr

namespace ArgumentKind

/-- Whether an argument has a value. -/
def takesValue : ArgumentKind → Bool
  | help | switch => false
  | text | path | truth => true

/-- Whether a text can be the value of an argument. -/
def accepts (kind : ArgumentKind) (value : String) : Bool :=
  match kind with
  | path => value != ""
  | truth => value == "true" || value == "false"
  | _ => true

end ArgumentKind

/-- An argument of a command.  An option may have a letter beside its name; an operand may be
required, and may stand for any number of words. -/
structure Argument where
  name : String
  kind : ArgumentKind
  letter : Option Char := none
  required : Bool := false
  many : Bool := false
  deriving DecidableEq, Repr

namespace Argument

/-- The wish for help, which can be expressed at every command. -/
def help : Argument := { name := "help", kind := .help, letter := some 'h' }

end Argument

/-- The reasons for which words make no command. -/
inductive UsageError where
  | help
  | nothingGiven
  | missingCommand
  | unknownCommand
  | unknownArgument
  | badValue
  | unwantedValue
  | conflict
  | missingArgument
  deriving DecidableEq, Repr

/-- The wording of a reason. -/
def UsageError.message : UsageError → String
  | help => "help was asked for"
  | nothingGiven => "nothing was given"
  | missingCommand => "a command is missing"
  | unknownCommand => "there is no such command"
  | unknownArgument => "there is no such argument"
  | badValue => "an argument has no value that it can have"
  | unwantedValue => "an argument has a value but takes none"
  | conflict => "an argument was given twice or beside one that excludes it"
  | missingArgument => "a required argument is missing"

/-- What is given for some arguments, in order. -/
structure Values where
  given : List (String × List String)
  deriving DecidableEq, Repr

namespace Values

/-- Whether an argument is given. -/
def has (v : Values) (name : String) : Bool := v.given.any (·.1 == name)

/-- All texts that are given for an argument. -/
def texts (v : Values) (name : String) : List String :=
  (v.given.filter (·.1 == name)).flatMap (·.2)

/-- The text that is given for an argument. -/
def text? (v : Values) (name : String) : Option String := (v.texts name).head?

/-- The text that is given for a required argument. -/
def text (v : Values) (name : String) : String := (v.text? name).getD ""

/-- The truth value that is given for an argument, or a default. -/
def truth (v : Values) (name : String) (default : Bool) : Bool :=
  (v.text? name).elim default (· == "true")

end Values

/-- The commands of a program.  A command has options and operands, pairs of them that exclude
each other, and what it makes of their values; a group has commands under their names. -/
inductive Grammar (α : Type) where
  | command (options operands : List Argument) (exclusive : List (String × String))
    (build : Values → α)
  | group (commands : List (List String × Grammar α))

namespace Grammar

variable {α : Type}

/-- A command without arguments. -/
def plain (a : α) : Grammar α := .command [] [] [] fun _ => a

mutual

/-- The grammar of the same words, where something is made of the commands. -/
def map {β : Type} (f : α → β) : Grammar α → Grammar β
  | command options operands exclusive build =>
    command options operands exclusive fun values => f (build values)
  | group commands => group (mapEach f commands)

/-- The commands of a group, where something is made of each. -/
def mapEach {β : Type} (f : α → β) : List (List String × Grammar α) →
    List (List String × Grammar β)
  | [] => []
  | (names, g) :: rest => (names, g.map f) :: mapEach f rest

end

/-- The options of a command. -/
def options : Grammar α → List Argument
  | command options .. => options
  | group _ => []

/-- The operands of a command. -/
def operands : Grammar α → List Argument
  | command _ operands .. => operands
  | group _ => []

/-- Whether commands are grouped here. -/
def isGroup : Grammar α → Bool
  | command .. => false
  | group _ => true

/-- The command with a name in a group. -/
def command? : Grammar α → String → Option (Grammar α)
  | command .., _ => none
  | group commands, name => (commands.find? fun c => c.1.contains name).map (·.2)

/-- The command of every group that tells about the others. -/
def helpCommand : String := "help"

/-- Whether a word chooses a command here. -/
def knows (g : Grammar α) (word : String) : Bool :=
  g.isGroup && (word == helpCommand || (g.command? word).isSome)

end Grammar

end PluginHost
