import Univariate.ParseError
import Univariate.Text.Alphabetic
import Univariate.Text.Clean

/-!
# Reading tokens

Cleaned text is cut into pieces: longest runs of digits and points, longest runs of letters, `**`
taken greedily from the left, and single characters. A run of letters is cut again, at each
position after the longest name that starts there, so `xsin` is `x` and `sin`, and a variable `e`
does not break up `exp`. Last, products that are only implied are written out.

The length limit counts tokens before the implied products and is looked at before each piece.
-/

namespace Univariate

open Text

inductive Piece where
  | number (first : Char) (rest : List Char)
  | word (first : Char) (rest : List Char)
  | power
  | single (char : Char)
  deriving DecidableEq, Repr

namespace Piece

def isNumeric (c : Char) : Bool := c.isDigit || c == '.'

/-- Puts a character before pieces. -/
def cons (c : Char) (pieces : List Piece) : List Piece :=
  if isNumeric c then
    match pieces with
    | number d ds :: pieces => number c (d :: ds) :: pieces
    | pieces => number c [] :: pieces
  else if isAlphabetic c then
    match pieces with
    | word d ds :: pieces => word c (d :: ds) :: pieces
    | pieces => word c [] :: pieces
  else single c :: pieces

def ofChars : List Char → List Piece
  | [] => []
  | '*' :: '*' :: cs => power :: ofChars cs
  | c :: cs => cons c (ofChars cs)

def chars : Piece → List Char
  | number c cs | word c cs => c :: cs
  | power => ['*', '*']
  | single c => [c]

def first : Piece → Char
  | number c _ | word c _ | single c => c
  | power => '*'

/-- A character is put before the text of pieces, however powers are written there. -/
theorem flatMap_cons {write : Piece → List Char} (plain : ∀ p, p ≠ power → write p = p.chars)
    (c : Char) (pieces : List Piece) :
    (cons c pieces).flatMap write = c :: pieces.flatMap write := by
  unfold cons
  split
  · split <;> simp [plain, chars]
  · split
    · split <;> simp [plain, chars]
    · simp [plain, chars]

/-- Cutting a text into pieces loses nothing. -/
theorem flatMap_chars_ofChars (cs : List Char) : (ofChars cs).flatMap chars = cs := by
  fun_induction ofChars cs with
  | case1 => rfl
  | case2 cs ih => simp [chars, ih]
  | case3 c cs _ ih => rw [flatMap_cons (fun _ _ => rfl), ih]

end Piece

/-- How many bytes of UTF-8 a text takes. -/
def byteSize : List Char → Nat
  | [] => 0
  | c :: cs => c.utf8Size + byteSize cs

@[simp] theorem byteSize_nil : byteSize [] = 0 := rfl

@[simp] theorem byteSize_cons (c : Char) (cs : List Char) :
    byteSize (c :: cs) = c.utf8Size + byteSize cs := rfl

@[simp] theorem byteSize_append (cs ds : List Char) :
    byteSize (cs ++ ds) = byteSize cs + byteSize ds := by
  induction cs with
  | nil => simp
  | cons c cs ih => simp [ih, Nat.add_assoc]

@[simp] theorem byteSize_toList (s : String) : byteSize s.toList = s.utf8ByteSize := by
  rw [← String.ofList_toList (s := s), String.toList_ofList]
  induction s.toList with
  | nil => rfl
  | cons c cs ih => rw [String.ofList_cons]; simp [ih]

/-- What a word is made of. -/
inductive Name where
  | var (name : String)
  | func (func : Func)
  deriving DecidableEq, Repr

namespace Name

variable {α : Type}

def text : Name → String
  | var name => name
  | func f => f.name

def token : Name → Token α
  | var name => .var name
  | func f => .func f

def startsIn (name : Name) (letters : List Char) : Bool := name.text.toList.isPrefixOf letters

end Name

namespace Lexer

/-- The longest name at the head of `letters`. No function name is the beginning of another, and
the variable counts only if it is longer than the function. The empty variable is no name. -/
def name? (var : String) (letters : List Char) : Option Name :=
  let own? := if var ≠ "" ∧ (Name.var var).startsIn letters then some (Name.var var) else none
  let func? := (Func.all.map Name.func).find? (·.startsIn letters)
  match func?, own? with
  | some f, some v => if f.text.length < v.text.length then some v else some f
  | f, v => f.or v

/-- The letters up to the first position where a name starts. -/
def unnamed (var : String) : List Char → List Char
  | [] => []
  | c :: cs => if (name? var (c :: cs)).isSome then [] else c :: unnamed var cs

variable {α : Type}

/-- The names that `letters` consists of, after the first `skip` of them. -/
def splitWord (var : String) : (offset skip : Nat) → (letters : List Char) →
    Except Mistake (List (Token α))
  | _, _, [] => .ok []
  | offset, skip + 1, c :: cs => splitWord var (offset + c.utf8Size) skip cs
  | offset, 0, c :: cs =>
    match name? var (c :: cs) with
    | some name =>
      (name.token :: ·) <$> splitWord var (offset + c.utf8Size) (name.text.length - 1) cs
    | none =>
      let unknown := c :: unnamed var cs
      .error ⟨.unknownName (String.ofList unknown) var, ⟨offset, byteSize unknown⟩⟩

variable [Numeral α]

def tokens (var : String) (offset : Nat) : Piece → Except Mistake (List (Token α))
  | .number c cs =>
    match Decimal.ofChars? (c :: cs) with
    | some d => .ok [.num (Numeral.ofDecimal d)]
    | none =>
      .error ⟨.unexpected (String.ofList (c :: cs)) .numeral, ⟨offset, byteSize (c :: cs)⟩⟩
  | .word c cs => splitWord var offset 0 (c :: cs)
  | .power => .ok [.op .pow]
  | .single '+' => .ok [.op .add]
  | .single '-' => .ok [.op .sub]
  | .single '*' => .ok [.op .mul]
  | .single '/' => .ok [.op .div]
  | .single '^' => .ok [.op .pow]
  | .single '(' => .ok [.opening]
  | .single ')' => .ok [.closing]
  | .single c => .error ⟨.unexpected (String.singleton c) .character, ⟨offset, c.utf8Size⟩⟩

/-- The tokens of pieces that start at `offset`, after `count` tokens. -/
def scan (var : String) : (offset count : Nat) → List Piece →
    Except Mistake (List (Token α))
  | _, _, [] => .ok []
  | offset, count, piece :: pieces =>
    if maxTokens ≤ count then
      .error ⟨.unexpected (String.singleton piece.first) .tooLong,
        ⟨offset, piece.first.utf8Size⟩⟩
    else do
      let ts ← tokens var offset piece
      let rest ← scan var (offset + byteSize piece.chars) (count + ts.length) pieces
      return ts ++ rest

/-- Whether two neighbours are factors of a product. -/
def isProduct : Token α → Token α → Bool
  | .num _, .var _ | .num _, .func _ | .num _, .opening => true
  | .var _, .var _ | .var _, .func _ | .var _, .opening | .var _, .num _ => true
  | .closing, .var _ | .closing, .func _ | .closing, .opening | .closing, .num _ => true
  | _, _ => false

def insertProducts : List (Token α) → List (Token α)
  | t :: u :: ts =>
    if isProduct t u then t :: .op .mul :: insertProducts (u :: ts)
    else t :: insertProducts (u :: ts)
  | ts => ts

/-- The tokens of a text, in which the only free name is the variable. -/
def tokenize (var input : String) : Except ParseError (List (Token α)) :=
  let source := clean input
  match scan (lower var) 0 0 (Piece.ofChars source.toList) with
  | .ok ts => .ok (insertProducts ts)
  | .error m => .error (m.inText source)

end Lexer

end Univariate
