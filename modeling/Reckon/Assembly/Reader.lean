import Reckon.Assembly.StringData
import Reckon.Fault
import Reckon.Text.LetterCase
import Reckon.Text.Lines
import Reckon.Text.Word

/-!
# Reading assembly text

Each line holds a label, a directive or an instruction, and a remark after a number sign that is not
inside a string. Labels outside the text section stand for addresses of data. Instructions are read
whatever their name; only the machine asks whether it knows them.
-/

namespace Reckon.Assembly

/-! ## Operands -/

/-- The character may stand in a symbol. -/
def isSymbolChar (c : Char) : Bool :=
  c == '.' || Text.isWord c

/-- The text is a symbol: letters, numbers, low lines and points, not beginning with a number. -/
def isSymbol : List Char → Bool
  | [] => false
  | first :: rest =>
    (first == '.' || first == '_' || Text.isAsciiLetter first) && rest.all isSymbolChar

/-- The text is a word. -/
def isWordText (cs : List Char) : Bool :=
  !cs.isEmpty && cs.all Text.isWord

/-- The sign and digits of an integer. -/
def signedDigits? (cs : List Char) : Option (Bool × List Char) :=
  let (negative, digits) :=
    match cs with
    | '-' :: rest => (true, rest)
    | rest => (false, rest)
  if !digits.isEmpty && digits.all Text.isDigit then some (negative, digits) else none

/-- The integer with the given sign and digits. -/
def readSigned (negative : Bool) (digits : List Char) : Except Fault Int :=
  match Text.readNatural digits with
  | .ok value => .ok (if negative then -(value : Int) else value)
  | .error error => .error (.numeral error)

/-- The text without a line feed at its end, of which patterns take no notice. -/
def withoutFinalNewline (cs : List Char) : List Char :=
  match cs.reverse with
  | '\n' :: before => before.reverse
  | _ => cs

/-- The displacement and the base of a place in memory, as they are written. -/
def memoryParts? (cs : List Char) : Option (List Char × List Char) :=
  let displacement := cs.takeWhile (· != '(')
  match cs.dropWhile (· != '(') with
  | '(' :: '%' :: inside =>
    match inside.reverse with
    | ')' :: base =>
      let written := displacement.isEmpty || (signedDigits? displacement).isSome ||
        displacement.all isSymbolChar
      if written && isWordText base then some (displacement, base.reverse) else none
    | _ => none
  | _ => none

/-- The base with a name. -/
def base? (name : String) : Option Base :=
  if name == "rip" then some .rip else (Register.ofName? name).map fun (r, _) => .register r

/-- The place in memory with the given displacement and base. -/
def readMemory (line : Int) (displacement base : List Char) : Except Fault Operand :=
  match base? (String.ofList base) with
  | none => .error (.onLine line (.unsupportedBase (String.ofList base)))
  | some base =>
    if displacement.isEmpty then .ok (.memory base 0 none)
    else
      match signedDigits? displacement with
      | some (negative, digits) =>
        (readSigned negative digits).map fun value => .memory base value none
      | none => .ok (.memory base 0 (some (String.ofList displacement)))

/-- An operand that is no constant and no register. -/
def readPlace (line : Int) (text cs : List Char) : Except Fault Operand :=
  match memoryParts? cs with
  | some (displacement, base) => readMemory line displacement base
  | none =>
    if isSymbol cs then .ok (.symbol (String.ofList text))
    else .error (.onLine line (.unreadableOperand (String.ofList text)))

/-- An operand. -/
def readOperand (line : Int) (text : List Char) : Except Fault Operand :=
  let cs := withoutFinalNewline text
  match cs with
  | '$' :: rest =>
    match signedDigits? rest with
    | some (negative, digits) => (readSigned negative digits).map .immediate
    | none => readPlace line text cs
  | '%' :: name =>
    if isWordText name then
      match Register.ofName? (String.ofList name) with
      | some (r, w) => .ok (.register r w)
      | none => .error (.onLine line (.unsupportedRegister (String.ofList text)))
    else readPlace line text cs
  | _ => readPlace line text cs

/-- The operands of an instruction as they are written: divided at the commas outside parentheses.
`current` is the beginning of the first one, last character first. -/
def splitOperandsFrom (depth : Int) (current : List Char) : List Char → List (List Char)
  | [] =>
    let last := Text.trim current.reverse
    if last.isEmpty then [] else [last]
  | c :: rest =>
    if c == ',' && depth == 0 then Text.trim current.reverse :: splitOperandsFrom depth [] rest
    else
      let depth := if c == '(' then depth + 1 else if c == ')' then depth - 1 else depth
      splitOperandsFrom depth (c :: current) rest

/-- The operands of an instruction as they are written. -/
def splitOperands (cs : List Char) : List (List Char) :=
  splitOperandsFrom 0 [] cs

/-! ## Lines -/

/-- The line up to a number sign outside a string, where `inString` and `escaped` tell what came
before. A backslash takes the next character with it. -/
def withoutCommentFrom (inString escaped : Bool) : List Char → List Char
  | [] => []
  | c :: rest =>
    if escaped then c :: withoutCommentFrom inString false rest
    else if c == '\\' then c :: withoutCommentFrom inString true rest
    else if c == '\x22' then c :: withoutCommentFrom (!inString) false rest
    else if c == '#' && !inString then []
    else c :: withoutCommentFrom inString false rest

/-- The line without its remark. -/
def withoutComment (cs : List Char) : List Char :=
  withoutCommentFrom false false cs

/-- The label that a line sets. -/
def label? (cs : List Char) : Option String :=
  match cs.reverse with
  | ':' :: before => if isSymbol before.reverse then some (String.ofList before.reverse) else none
  | _ => none

/-- A program that has been read in part. -/
structure ReaderState where
  /-- What has been read. -/
  image : Image
  /-- The section that labels and data belong to. -/
  sectionName : String

/-- Nothing has been read. -/
def ReaderState.initial : ReaderState := ⟨.empty, ".text"⟩

/-- The text between the quotes of a string directive. -/
def quotedBody? (cs : List Char) : Option (List Char) :=
  match cs with
  | '\x22' :: rest =>
    match rest.reverse with
    | '\x22' :: body => some body.reverse
    | _ => none
  | _ => none

/-- Sets a label at the place that has been reached. -/
def ReaderState.setLabel (s : ReaderState) (name : String) : ReaderState :=
  let image := s.image
  if s.sectionName == ".text" then
    { s with
      image := { image with codeLabels := image.codeLabels.insert name image.instructions.size } }
  else
    { s with
      image := { image with
        dataLabels := image.dataLabels.insert name (dataBase + image.data.size) } }

/-- Follows a directive. -/
def ReaderState.direct (s : ReaderState) (line : Nat) (name : String) (rest : List Char) :
    Except Fault ReaderState :=
  if name == ".text" then .ok { s with sectionName := ".text" }
  else if name == ".section" then
    .ok { s with sectionName := String.ofList (Text.trim (rest.takeWhile (· != ','))) }
  else if name == ".string" || name == ".asciz" then
    match quotedBody? rest with
    | none => .error (.onLine line (.malformedString (String.ofList rest)))
    | some body =>
      match stringBytes body with
      | .ok bytes =>
        .ok { s with image := { s.image with data := s.image.data ++ (bytes ++ [0]).toArray } }
      | .error error => .error (.encoding error)
  else if name == ".globl" || name == ".global" then .ok s
  else .error (.onLine line (.unsupportedDirective name))

/-- Reads an instruction. -/
def ReaderState.instruct (s : ReaderState) (line : Nat) (name rest : List Char) :
    Except Fault ReaderState := do
  let operands ← (splitOperands rest).mapM (readOperand line)
  let instruction : Instruction := ⟨String.ofList (Text.lowercase name), operands, line⟩
  return { s with image := { s.image with instructions := s.image.instructions.push instruction } }

/-- Reads a line. -/
def ReaderState.readLine (s : ReaderState) (line : Nat) (cs : List Char) :
    Except Fault ReaderState :=
  let cs := Text.trim (withoutComment cs)
  if cs.isEmpty then .ok s
  else
    match label? cs with
    | some name => .ok (s.setLabel name)
    | none =>
      let name := cs.takeWhile (· != ' ')
      let rest := Text.trim (cs.dropWhile (· != ' '))
      if name.head? == some '.' then s.direct line (String.ofList name) rest
      else s.instruct line name rest

/-- Reads lines, numbered from `line` on. -/
def ReaderState.readLines (s : ReaderState) (line : Nat) :
    List (List Char) → Except Fault ReaderState
  | [] => .ok s
  | cs :: rest =>
    match s.readLine line cs with
    | .ok s' => s'.readLines (line + 1) rest
    | .error fault => .error fault

/-- The program of an assembly text. -/
def Image.ofText (text : String) : Except Fault Image :=
  (ReaderState.initial.readLines 1 (Text.lines text.toList)).map ReaderState.image

end Reckon.Assembly
