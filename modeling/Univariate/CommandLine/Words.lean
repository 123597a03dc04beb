/-!
# Words of a command line

A command has options, which are written `--name value` or `--name=value`, and perhaps one
positional word. Options come in any order, before or after the positional, and each at most once;
after `--` there are no more of them.

A word that starts with a hyphen but names no option of the command is still its positional, as
long as that is missing, and otherwise an error. So is such a word where an option waits for its
value, except that options which ask for it take numbers, or any word at all.
-/

namespace Univariate.CommandLine

/-- Which words that start with a hyphen an option takes for its value in any case. -/
inductive Hyphens where
  | never
  | numbers
  | always
  deriving DecidableEq, Repr

/-- Why no command is run. -/
inductive Stop where
  | rejected
  | version
  | help
  deriving DecidableEq, Repr

inductive Kind where
  | value (hyphens : Hyphens)
  | switch
  | stop (why : Stop)
  deriving DecidableEq, Repr

structure Grammar where
  options : List (String × Kind)
  letters : List (Char × Stop)
  positional : Bool

inductive Word where
  | escape
  | long (name : String) (value : Option String)
  | short (first : Char) (rest : List Char)
  | plain
  deriving DecidableEq, Repr

def Word.ofText (text : String) : Word :=
  match text.toList with
  | ['-', '-'] => escape
  | '-' :: '-' :: cs =>
    let value := match cs.dropWhile (· ≠ '=') with
      | [] => none
      | _ :: value => some (String.ofList value)
    long (String.ofList (cs.takeWhile (· ≠ '='))) value
  | '-' :: c :: cs => short c cs
  | _ => plain

/-- Digits with at most one point and then at most one exponent mark in either case, neither of them
first and the mark not last. The exponent has no sign. -/
def isNumber (cs : List Char) : Bool :=
  let isMark (c : Char) : Bool := c == 'e' || c == 'E'
  let mantissa := cs.takeWhile (!isMark ·)
  let whole := mantissa.takeWhile (· ≠ '.')
  let fraction := (mantissa.dropWhile (· ≠ '.')).tail
  let exponent := cs.dropWhile (!isMark ·)
  whole.all Char.isDigit && !whole.isEmpty && fraction.all Char.isDigit &&
    exponent.tail.all Char.isDigit && exponent.length ≠ 1

/-- What has been read. A switch that is on has the empty value. -/
structure Given where
  positional : Option String
  options : List (String × String)

namespace Given

def empty : Given := ⟨none, []⟩

def option? (g : Given) (name : String) : Option String := g.options.lookup name

def put (g : Given) (name value : String) : Except Stop Given :=
  match g.option? name with
  | some _ => .error .rejected
  | none => .ok { g with options := (name, value) :: g.options }

end Given

namespace Grammar

/-- Whether a positional word is still missing. -/
def awaits (s : Grammar) (g : Given) : Bool := s.positional && g.positional.isNone

def place (s : Grammar) (g : Given) (word : String) : Except Stop Given :=
  if s.awaits g then .ok { g with positional := some word } else .error .rejected

/-- Whether one of the letters after a single hyphen means nothing to the command. -/
def hasUnknown (s : Grammar) (letters : List Char) : Bool :=
  letters.any fun c => (s.letters.lookup c).isNone

/-- Whether a waiting option takes the word. -/
def takes (s : Grammar) (g : Given) (hyphens : Hyphens) (word : String) : Bool :=
  match hyphens, Word.ofText word with
  | .always, _ | _, .plain => true
  | _, .escape => false
  | _, .long name _ => (s.options.lookup name).isNone && s.awaits g
  | hyphens, .short c cs =>
    (hyphens = .numbers && isNumber (c :: cs)) || (s.awaits g && s.hasUnknown (c :: cs))

/-- Reads words, where `waiting` is an option that still lacks its value. The words that are left
start with the first plain one if the command has no positional. -/
def read (s : Grammar) (waiting : Option (String × Hyphens)) (g : Given) :
    List String → Except Stop (Given × List String)
  | [] => if waiting.isNone then .ok (g, []) else .error .rejected
  | word :: words =>
    match waiting with
    | some (name, hyphens) =>
      if s.takes g hyphens word then do s.read none (← g.put name word) words
      else .error .rejected
    | none =>
      match Word.ofText word with
      | .escape => do return (← words.foldlM s.place g, [])
      | .long name value =>
        match s.options.lookup name, value with
        | some (.value _), some value => do s.read none (← g.put name value) words
        | some (.value hyphens), none => s.read (some (name, hyphens)) g words
        | some .switch, none => do s.read none (← g.put name "") words
        | some (.stop why), none => .error why
        | some _, some _ => .error .rejected
        | none, _ => do s.read none (← s.place g word) words
      | .short c cs =>
        if s.awaits g && s.hasUnknown (c :: cs) then do s.read none (← s.place g word) words
        else .error ((s.letters.lookup c).getD .rejected)
      | .plain =>
        if s.positional then do s.read none (← s.place g word) words
        else .ok (g, word :: words)

end Grammar

end Univariate.CommandLine
