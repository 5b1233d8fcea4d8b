import PluginHost.Arguments

/-!
# Reading arguments

Words are read in order.  `--name` and `--name=value` give an option by its name, and `-x` by
its letter; letters of switches may be joined, and the rest of a word after the letter of an
option with a value is that value.  After `--` words are operands only.  A value that stands in
a word of its own is looked at when the next argument begins, so that a fault in a later word
may be found before one in an earlier word.
-/

namespace PluginHost

/-- The state of reading: what is given so far, the argument whose values are being collected,
the operands that are still to come, and whether all words are operands by now. -/
structure Reading where
  given : List (String × List String)
  pending : Option (Argument × List String)
  operands : List Argument
  literal : Bool

namespace Reading

/-- The state before the first word of a command. -/
def start (operands : List Argument) : Reading := ⟨[], none, operands, false⟩

/-- Gives values for an argument.  One that has a value must not be without, and none but an
operand for many words is given twice. -/
def give (r : Reading) (a : Argument) (values : List String) : Except UsageError Reading :=
  if a.kind.takesValue && values.isEmpty then .error .badValue
  else if !a.many && (⟨r.given⟩ : Values).has a.name then .error .conflict
  else if values.all a.kind.accepts then .ok { r with given := r.given ++ [(a.name, values)] }
  else .error .badValue

/-- Gives the values that have been collected. -/
def settle (r : Reading) : Except UsageError Reading :=
  match r.pending with
  | none => .ok r
  | some (a, values) => { r with pending := none }.give a values

/-- Begins an option without a value in the same word. -/
def choose (r : Reading) (a : Argument) : Except UsageError Reading := do
  let r ← r.settle
  match a.kind with
  | .help => .error .help
  | .switch => r.give a []
  | _ => .ok { r with pending := some (a, []) }

/-- Gives an option with its value in the same word. -/
def attach (r : Reading) (a : Argument) (value : List Char) : Except UsageError Reading := do
  (← r.settle).give a [String.ofList value]

/-- Reads a word after two dashes. -/
def takeName (r : Reading) (options : List Argument) (body : List Char) :
    Except UsageError Reading :=
  let name := String.ofList (body.takeWhile (· != '='))
  match options.find? (·.name == name), body.dropWhile (· != '=') with
  | none, _ => .error .unknownArgument
  | some a, [] => r.choose a
  | some a, _ :: value => if a.kind.takesValue then r.attach a value else .error .unwantedValue

/-- Reads the letters after a dash. -/
def takeLetters (r : Reading) (options : List Argument) : List Char → Except UsageError Reading
  | [] => .ok r
  | c :: rest =>
    match options.find? (·.letter == some c) with
    | none => .error .unknownArgument
    | some a =>
      if a.kind.takesValue then
        match rest with
        | [] => r.choose a
        | '=' :: value => r.attach a value
        | value => r.attach a value
      else do (← r.choose a).takeLetters options rest

/-- Reads a word as an operand, or finds it in excess. -/
def takeOperand (r : Reading) (excess : UsageError) (word : String) :
    Except UsageError Reading :=
  match r.operands with
  | [] => .error excess
  | a :: rest =>
    match r.pending with
    | some (b, values) =>
      if a = b && a.many then .ok { r with pending := some (a, values ++ [word]) }
      else do
        return { (← r.settle) with
          pending := some (a, [word]), operands := if a.many then a :: rest else rest }
    | none =>
      .ok { r with pending := some (a, [word]), operands := if a.many then a :: rest else rest }

/-- Whether an option is waiting for its value. -/
def awaits (r : Reading) : Bool :=
  match r.pending with
  | some (_, values) => values.isEmpty
  | none => false

/-- Reads a word that chooses no command. -/
def take (r : Reading) (options : List Argument) (excess : UsageError) (word : String) :
    Except UsageError Reading :=
  if r.literal then r.takeOperand excess word
  else
    match word.toList with
    | ['-', '-'] => .ok { r with literal := true }
    | '-' :: '-' :: body => r.takeName options body
    | '-' :: c :: rest => r.takeLetters options (c :: rest)
    | _ =>
      match r.pending with
      | some (a, []) => .ok { r with pending := some (a, [word]) }
      | _ => r.takeOperand excess word

end Reading

namespace Grammar

variable {α : Type}

/-- What is wrong with a word that cannot be an operand. -/
def excess (g : Grammar α) (literal : Bool) (word : String) : UsageError :=
  if g.isGroup && !(literal && g.knows word) then .unknownCommand else .unknownArgument

/-- The answer to the wish for help about a command that is named by some words. -/
def helpAbout : Grammar α → List String → UsageError
  | _, [] => .help
  | g, word :: rest =>
    match g.command? word with
    | some inner => inner.helpAbout rest
    | none => if g.isGroup && word == helpCommand && rest.isEmpty then .help else .unknownCommand

/-- What a command makes of its values after the last word. -/
def finish (g : Grammar α) (r : Reading) : Except UsageError α :=
  let values : Values := ⟨r.given⟩
  match g with
  | group _ => .error (if r.given.isEmpty then .nothingGiven else .missingCommand)
  | command _ operands exclusive build =>
    if exclusive.any fun (a, b) => values.has a && values.has b then .error .conflict
    else if operands.any fun a => a.required && !values.has a.name then .error .missingArgument
    else .ok (build values)

/-- Reads words from a state.  The common options are understood at every command. -/
def readFrom (common : List Argument) : Grammar α → Reading → List String → Except UsageError α
  | g, r, [] => do g.finish (← r.settle)
  | g, r, word :: rest =>
    if !r.literal && g.isGroup && word == helpCommand then .error (g.helpAbout rest)
    else
      match if r.literal then none else g.command? word with
      | some inner => readFrom common inner (.start inner.operands) rest
      | none => do
        readFrom common g (← r.take (common ++ g.options) (g.excess r.literal word) word) rest

/-- The command that words make. -/
def read (g : Grammar α) (common : List Argument) (words : List String) : Except UsageError α :=
  readFrom (.help :: common) g (.start g.operands) words

end Grammar

end PluginHost
