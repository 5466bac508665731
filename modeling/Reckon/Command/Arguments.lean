import Reckon.Command.Request

/-!
# Command line arguments

Options may stand before and after the source text. A word of one hyphen and letters holds several
short options; one that takes a value takes the rest of its word or else the next word. A long
option takes its value after an equality sign or from the next word. Two hyphens end the options,
and one hyphen alone is no option. Of repeated values the last one counts.
-/

namespace Reckon.Command

/-- An option without a value. -/
inductive Flag where
  | tree
  | assembly
  | run
  | comments
  | verbose
  | version
  | help
  deriving DecidableEq, Repr

/-- The flag with a long name. -/
def Flag.ofLong? : String → Option Flag
  | "--ast" => some tree
  | "--assembly" => some assembly
  | "--run" => some run
  | "--comments" => some comments
  | "--verbose" => some verbose
  | "--version" => some version
  | "--help" => some help
  | _ => none

/-- The flag with a short name. -/
def Flag.ofShort? : Char → Option Flag
  | 'S' => some assembly
  | 'v' => some verbose
  | _ => none

/-- The flag asks for information about the command instead of work. -/
def Flag.isInformation : Flag → Bool
  | version | help => true
  | _ => false

/-- What is wrong with the arguments of a command. -/
inductive UsageError where
  | unknownOption (name : String)
  | missingValue (name : String)
  | unexpectedValue (name : String)
  | missingSource
  | extraArguments (arguments : List String)
  | outputIsDirectory (path : String)
  deriving DecidableEq, Repr

/-- The wording of a usage error. -/
def UsageError.message : UsageError → String
  | unknownOption name => s!"No such option: {name}"
  | missingValue name => s!"Option '{name}' requires an argument."
  | unexpectedValue name => s!"Option '{name}' does not take a value."
  | missingSource => "Missing argument 'SOURCE'."
  | extraArguments arguments =>
    let noun := if arguments.length = 1 then "argument" else "arguments"
    s!"Got unexpected extra {noun} (" ++ " ".intercalate arguments ++ ")"
  | outputIsDirectory path => s!"Invalid value for '-o' / '--output': File '{path}' is a directory."

/-- What one word of a command line says. -/
inductive Word where
  /-- It is no option. -/
  | operand
  | flags (flags : List Flag)
  /-- Some flags, then the output with its value or, without one, with the next word as its
  value. -/
  | output (flags : List Flag) (value? : Option String)
  deriving DecidableEq, Repr

namespace Word

/-- What the letters after one hyphen say, when some flags have been read. -/
def ofLetters (flags : List Flag) : List Char → Except UsageError Word
  | [] => .ok (.flags flags)
  | 'o' :: rest => .ok (.output flags (if rest.isEmpty then none else some (String.ofList rest)))
  | c :: rest =>
    match Flag.ofShort? c with
    | some flag => ofLetters (flags ++ [flag]) rest
    | none => .error (.unknownOption ("-" ++ c.toString))

/-- The name and the value of a long option. -/
def divide (cs : List Char) : String × Option String :=
  let name := String.ofList (cs.takeWhile (· != '='))
  match cs.dropWhile (· != '=') with
  | [] => (name, none)
  | _ :: value => (name, some (String.ofList value))

/-- What a word that begins with two hyphens says. -/
def ofLong (cs : List Char) : Except UsageError Word :=
  let (name, value?) := divide cs
  if name = "--output" then .ok (.output [] value?)
  else
    match Flag.ofLong? name, value? with
    | some flag, none => .ok (.flags [flag])
    | some _, some _ => .error (.unexpectedValue name)
    | none, _ => .error (.unknownOption name)

/-- What a word says. -/
def ofString (word : String) : Except UsageError Word :=
  match word.toList with
  | '-' :: '-' :: rest => ofLong ('-' :: '-' :: rest)
  | '-' :: c :: rest => ofLetters [] (c :: rest)
  | _ => .ok .operand

end Word

/-- What the words of a command line say together. -/
structure Arguments where
  /-- The flags, in order. -/
  flags : List Flag
  /-- The value of the last option for the output. -/
  output? : Option String
  /-- The words that are no options. -/
  operands : List String
  deriving DecidableEq, Repr

namespace Arguments

/-- No arguments. -/
def empty : Arguments := ⟨[], none, []⟩

/-- The arguments after some more words. -/
def extend (a : Arguments) : List String → Except UsageError Arguments
  | [] => .ok a
  | word :: rest =>
    if word = "--" then .ok { a with operands := a.operands ++ rest }
    else
      match Word.ofString word with
      | .error e => .error e
      | .ok .operand => extend { a with operands := a.operands ++ [word] } rest
      | .ok (.flags flags) => extend { a with flags := a.flags ++ flags } rest
      | .ok (.output flags (some value)) =>
        extend { a with flags := a.flags ++ flags, output? := some value } rest
      | .ok (.output flags none) =>
        match rest with
        | [] => .error (.missingValue word)
        | value :: rest =>
          extend { a with flags := a.flags ++ flags, output? := some value } rest

/-- The arguments that the words of a command line say. -/
def ofWords (words : List String) : Except UsageError Arguments :=
  empty.extend words

end Arguments

/-- What the words of a command line ask for. -/
inductive Invocation where
  | version
  | help
  | work (request : Request)
  deriving DecidableEq, Repr

/-- The executable that is built unless another is named. -/
def defaultOutput : String := "out"

/-- The work that arguments ask for: there is one operand, the source. -/
def Request.ofArguments (a : Arguments) : Except UsageError Request :=
  match a.operands with
  | [] => .error .missingSource
  | [source] =>
    .ok
      { source
        output := a.output?.getD defaultOutput
        tree := a.flags.contains .tree
        assembly := a.flags.contains .assembly
        run := a.flags.contains .run
        comments := a.flags.contains .comments
        verbose := a.flags.contains .verbose }
  | _ :: more => .error (.extraArguments more)

/-- What the words of a command line ask for. Questions about the command are answered whatever else
is asked, the first one first. -/
def Invocation.ofWords (words : List String) : Except UsageError Invocation := do
  let a ← Arguments.ofWords words
  match a.flags.find? Flag.isInformation with
  | some .version => return version
  | some _ => return help
  | none => return work (← Request.ofArguments a)

end Reckon.Command
