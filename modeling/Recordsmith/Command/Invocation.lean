import Recordsmith.Number.Integer
import Recordsmith.Settings

/-!
# Command lines

    synthgen [--config FILE] [--log-format FORMAT] json -t FILE [-n N] [-a N] [-x N] [--seed N]
                                                        [--out FILE] [--report FILE]
    synthgen [--config FILE] [--log-format FORMAT] csv -t FILE [-n N] [-d TEXT] [--seed N]
                                                       [--out FILE]

* `Flag` are the options of the command line, `Command` the commands;
* `Invocation.parse` reads a command line, or says why it is none.

Options of all commands may stand before or after the command; the later place wins. Within one
place no option may be repeated.
-/

namespace Recordsmith

/-- The commands. -/
inductive Command where
  | json
  | csv
deriving DecidableEq, Repr

/-- The options of the command line; all take a value. -/
inductive Flag where
  | config
  | logFormat
  | template
  | count
  | nested
  | workers
  | delimiter
  | seed
  | out
  | report
deriving DecidableEq, Repr

namespace Flag

/-- The long name. -/
def longName : Flag → Text
  | config => "config".toList
  | logFormat => "log-format".toList
  | template => "template".toList
  | count => "count".toList
  | nested => "nested".toList
  | workers => "workers".toList
  | delimiter => "delimiter".toList
  | seed => "seed".toList
  | out => "out".toList
  | report => "report".toList

/-- The letter of the short form. -/
def letter? : Flag → Option Char
  | template => some 't'
  | count => some 'n'
  | nested => some 'a'
  | workers => some 'x'
  | delimiter => some 'd'
  | _ => none

/-- The options that may stand before the command, and after any. -/
def common : List Flag := [config, logFormat]

/-- The options that may stand before the command, or after it. -/
def allowed : Option Command → List Flag
  | none => common
  | some .json => [template, count, nested, workers, seed, out, report] ++ common
  | some .csv => [template, count, delimiter, seed, out] ++ common

/-- A value that the option accepts: numbers are unsigned words, files have a name. -/
def accepts (value : Text) : Flag → Bool
  | count | nested | workers | seed => (readInteger .word64 value).isOk
  | config | template | out | report => !value.isEmpty
  | logFormat => (LogFormat.named? value).isSome
  | delimiter => true

end Flag

/-- Why a command line starts no run. -/
inductive Usage where
  | refused
  | help
  | version
deriving DecidableEq, Repr

/-- The options given, with the command under which each stands, and the command. -/
structure Invocation where
  command : Option Command
  given : List (Option Command × Flag × Text)
deriving DecidableEq

namespace Invocation

/-- What is known before the first word. -/
def start : Invocation := ⟨none, []⟩

/-- Sets an option at a place: before the command, or after it. -/
def set (i : Invocation) (place : Option Command) (flag : Flag) (value : Text) :
    Except Usage Invocation :=
  if i.given.any fun (other, given, _) => other = place && given = flag then .error .refused
  else if flag.accepts value then .ok { i with given := (place, flag, value) :: i.given }
  else .error .refused

/-- Sets the option, if any, whose value was the last word. -/
def settle (i : Invocation) (place : Option Command) :
    Option (Flag × Text) → Except Usage Invocation
  | some (flag, value) => i.set place flag value
  | none => .ok i

/-- A word that cannot be the value of the option before it. -/
def isOption : Text → Bool
  | '-' :: _ :: _ => true
  | _ => false

/-- What a word of the command line is. -/
inductive Word where
  /-- No option may follow. -/
  | stop
  | named (name : Text) (value : Option Text)
  | lettered (letter : Char) (rest : Text)
  | plain (t : Text)

/-- The kind of a word. -/
def classify : Text → Word
  | ['-', '-'] => .stop
  | '-' :: '-' :: t =>
    let (name, value) := t.span (· ≠ '=')
    .named name (match value with | [] => none | _ :: value => some value)
  | '-' :: letter :: rest => .lettered letter rest
  | t => .plain t

/-- The command of a name. -/
def command? (t : Text) : Option Command :=
  if t = "json".toList then some .json else if t = "csv".toList then some .csv else none

/-- There is help on nothing in particular, on each command, and on the help itself. -/
def hasHelp : List Text → Bool
  | [] => true
  | [t] => (command? t).isSome || t = "help".toList
  | _ => false

/-- The option that a word names at a place, with its value if the word holds it. -/
def option? (place : Option Command) : Word → Except Usage (Flag × Option Text)
  | .named name value =>
    match (Flag.allowed place).find? (·.longName = name) with
    | some flag => .ok (flag, value)
    | none =>
      if name = "help".toList ∧ value.isNone then .error .help
      else if name = "version".toList ∧ value.isNone ∧ place.isNone then .error .version
      else .error .refused
  | .lettered letter rest =>
    match (Flag.allowed place).find? (·.letter? = some letter) with
    | some flag =>
      .ok (flag, match rest with | [] => none | '=' :: value => some value | value => some value)
    | none =>
      if letter = 'h' then .error .help
      else if letter = 'V' ∧ place.isNone then .error .version
      else .error .refused
  | _ => .error .refused

/-- Reads the words of a command line at a place. A value in a word of its own is looked at when the
    next option of its place is met, or at the end of the line; so the words of the command may ask
    for help before a bad value in front of the command is found. -/
def readWords (place : Option Command) (i : Invocation) (last : Option (Flag × Text)) :
    List Text → Except Usage Invocation
  | [] => i.settle place last
  | t :: rest =>
    match classify t with
    | .stop => if rest.isEmpty then i.settle place last else .error .refused
    | .plain t =>
      match place, command? t with
      | none, some command => do
        let i ← readWords (some command) { i with command := some command } none rest
        i.settle none last
      | none, none =>
        if t = "help".toList ∧ hasHelp rest then .error .help else .error .refused
      | some _, _ => .error .refused
    | word => do
      let i ← i.settle place last
      match ← option? place word with
      | (flag, some value) => do readWords place (← i.set place flag value) none rest
      | (flag, none) =>
        match rest with
        | [] => .error .refused
        | value :: rest =>
          if isOption value then .error .refused
          else readWords place i (some (flag, value)) rest

/-- The value that an option has at a place. -/
def valueAt? (i : Invocation) (place : Option Command) (flag : Flag) : Option Text :=
  (i.given.find? fun (other, given, _) => other = place && given = flag).map (·.2.2)

/-- The value of an option; the later place wins. -/
def value? (i : Invocation) (flag : Flag) : Option Text :=
  (i.valueAt? i.command flag).or (i.valueAt? none flag)

/-- The value of an option that is a number. -/
def number? (i : Invocation) (flag : Flag) : Option Nat :=
  (i.value? flag).bind fun t => ((readInteger .word64 t).toOption).map Int.toNat

/-- Reads a command line. There must be a command, and a template for it. -/
def parse (words : List Text) : Except Usage Invocation := do
  let i ← readWords none start none words
  if i.command.isSome && (i.value? .template).isSome then pure i else throw .refused

/-- The options of the run: those of the settings, changed by the command line. -/
def options (i : Invocation) (o : Options) : Options where
  recordCount := (i.number? .count).getD o.recordCount
  nested := (i.number? .nested).getD o.nested
  workerCount := (i.number? .workers).getD o.workerCount
  delimiter := (i.value? .delimiter).getD o.delimiter
  seed := (i.number? .seed).or o.seed

/-- The format of log lines: that of the settings, changed by the command line. -/
def logFormat (i : Invocation) (settings : LogFormat) : LogFormat :=
  ((i.value? .logFormat).bind LogFormat.named?).getD settings

end Invocation
end Recordsmith
