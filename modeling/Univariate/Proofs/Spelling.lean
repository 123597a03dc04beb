import Mathlib.Data.List.Forall2
import Univariate.Proofs.Cutting

/-!
# Spelled tokens

Text without blanks in which every piece is one token. Operators and parentheses keep the pieces
around them apart, so the spelling of a whole is put together from the spellings of its parts. It
is read as its tokens up to the limit on their number, and as too long beyond it.
-/
namespace Univariate

open Text

/-- Letters that are not the name of a function. -/
structure IsName (v : String) : Prop where
  ne_empty : v ≠ ""
  letters : ∀ c ∈ v.toList, isAlphabetic c = true
  ne_func : ∀ f : Func, f.name ≠ v

theorem IsName.toList_ne_nil {v : String} (h : IsName v) : v.toList ≠ [] := by
  simpa using h.ne_empty

/-- A name that a variable can have: letters in lower case that are not the name of a function. -/
structure IsVariable (v : String) : Prop extends IsName v where
  lower_eq : lower v = v

namespace IsVariable

variable {v : String}

theorem isSmall (h : IsVariable v) : ∀ c ∈ v.toList, IsSmall c := by
  have same : lowercase v.toList = v.toList := by
    have := congrArg String.toList h.lower_eq
    simpa [lower] using this
  exact isSmall_of_lowercaseAfter_eq_self same

end IsVariable

theorem isVariable_x : IsVariable "x" := by
  refine ⟨⟨by decide, ?_, ?_⟩, by decide +kernel⟩
  · rw [← List.all_eq_true]
    decide +kernel
  · intro f
    cases f <;> decide

theorem Func.isAlphabetic_of_mem_name (f : Func) :
    ∀ c ∈ f.name.toList, isAlphabetic c = true := by
  rw [← List.all_eq_true]
  cases f <;> decide +kernel

theorem Func.isSmall_of_mem_name (f : Func) : ∀ c ∈ f.name.toList, IsSmall c := by
  have all : f.name.toList.all (fun c => decide (IsSmall c)) = true := by
    cases f <;> decide +kernel
  exact fun c hc => of_decide_eq_true (List.all_eq_true.mp all c hc)

theorem Func.name_ne_nil (f : Func) : f.name.toList ≠ [] := by cases f <;> decide

theorem Decimal.isNumeric_of_ofChars? {cs : List Char} {d : Decimal}
    (h : Decimal.ofChars? cs = some d) : cs ≠ [] ∧ ∀ c ∈ cs, Piece.isNumeric c = true := by
  simp only [Decimal.ofChars?] at h
  split at h
  · rename_i digits
    simp only [Bool.and_eq_true, List.all_eq_true, Bool.not_eq_true', List.isEmpty_eq_false_iff]
      at digits
    refine ⟨?_, fun c hc => ?_⟩
    · rintro rfl
      exact digits.2 rfl
    · rw [← List.takeWhile_append_dropWhile (p := (· ≠ '.')) (l := cs)] at hc
      rcases List.mem_append.mp hc with hc | hc
      · simp [Piece.isNumeric, digits.1 c (List.mem_append_left _ hc)]
      · -- what is dropped starts with the point
        cases rest : cs.dropWhile (· ≠ '.') with
        | nil => rw [rest] at hc; cases hc
        | cons x xs =>
          have point : x = '.' := by
            have := List.head?_dropWhile_not (· ≠ '.') cs
            rw [rest] at this
            simpa using this
          rw [rest] at hc
          rcases List.mem_cons.mp hc with rfl | hc
          · simp [Piece.isNumeric, point]
          · have := digits.1 c (List.mem_append_right _ (by rw [rest]; exact hc))
            simp [Piece.isNumeric, this]
  · cases h

namespace Lexer

/-- A name that stands in front of others is the function that `find?` sees. -/
theorem startsIn_of_find? {letters : List Char} {name : Name}
    (h : (Func.all.map Name.func).find? (·.startsIn letters) = some name) :
    ∃ f, name = .func f ∧ f.name.toList <+: letters := by
  obtain ⟨f, _, rfl⟩ := List.mem_map.mp (List.mem_of_find?_eq_some h)
  have starts := List.find?_some h
  exact ⟨f, rfl, List.isPrefixOf_iff_prefix.mp starts⟩

theorem name?_func (v : String) (f : Func) :
    name? v f.name.toList = some (.func f) := by
  have found : (Func.all.map Name.func).find? (·.startsIn f.name.toList) = some (.func f) := by
    cases f <;> decide
  by_cases starts : v ≠ "" ∧ (Name.var v).startsIn f.name.toList = true
  · -- the variable is the beginning of the function name, and shorter
    have shorter : v.toList.length ≤ f.name.toList.length :=
      (List.isPrefixOf_iff_prefix.mp starts.2).length_le
    have : ¬ (Name.func f).text.length < (Name.var v).text.length := by
      rw [← String.length_toList, ← String.length_toList]
      exact Nat.not_lt.mpr shorter
    simp only [name?, found, if_pos starts, if_neg this]
  · simp only [name?, found, if_neg starts, Option.or_none]

theorem name?_var {v : String} (h : IsVariable v) : name? v v.toList = some (.var v) := by
  have own : v ≠ "" ∧ (Name.var v).startsIn v.toList = true :=
    ⟨h.ne_empty, by simp [Name.startsIn, Name.text]⟩
  cases found : (Func.all.map Name.func).find? (·.startsIn v.toList) with
  | none => simp only [name?, found, if_pos own, Option.none_or]
  | some name =>
    obtain ⟨f, rfl, starts⟩ := startsIn_of_find? found
    have shorter : f.name.toList.length ≠ v.toList.length := by
      intro same
      exact h.ne_func f (String.toList_inj.mp (starts.eq_of_length same))
    have : (Name.func f).text.length < (Name.var v).text.length := by
      have := starts.length_le
      simp only [Name.text, ← String.length_toList]
      omega
    simp only [name?, found, if_pos own, if_pos this]

variable {α : Type}

theorem splitWord_skip (v : String) (offset : Nat) (cs ds : List Char) :
    splitWord (α := α) v offset cs.length (cs ++ ds) =
      splitWord v (offset + byteSize cs) 0 ds := by
  induction cs generalizing offset with
  | nil => rfl
  | cons c cs ih =>
    rw [List.length_cons, List.cons_append, splitWord, ih, byteSize_cons, Nat.add_assoc]

/-- A name at the head of a word is split off. -/
theorem splitWord_name {v : String} {name : Name} {letters : List Char}
    (text : name.text.toList ≠ [])
    (found : name? v (name.text.toList ++ letters) = some name) (offset : Nat) :
    splitWord (α := α) v offset 0 (name.text.toList ++ letters) =
      (name.token :: ·) <$> splitWord v (offset + byteSize name.text.toList) 0 letters := by
  obtain ⟨c, cs, h⟩ := List.exists_cons_of_ne_nil text
  have length : name.text.length - 1 = cs.length := by
    rw [← String.length_toList, h]
    rfl
  rw [h, List.cons_append] at found ⊢
  rw [splitWord, found]
  simp only [length, splitWord_skip, byteSize_cons, Nat.add_assoc]

variable [Numeral α]

/-- A piece that is one token, wherever it stands. -/
def Reads (v : String) (p : Piece) (t : Token α) : Prop :=
  ∀ offset, tokens v offset p = .ok [t]

/-- Each piece is read as some tokens, wherever it stands. -/
inductive Yields (v : String) : List Piece → List (Token α) → Prop where
  | nil : Yields v [] []
  | cons {p : Piece} {pieces : List Piece} {us ts : List (Token α)} :
      (∀ offset, tokens v offset p = .ok us) → us ≠ [] → Yields v pieces ts →
      Yields v (p :: pieces) (us ++ ts)

theorem Yields.scan_cases {v : String} {pieces : List Piece} {ts : List (Token α)}
    (h : Yields v pieces ts) (offset count : Nat) :
    scan v offset count pieces = .ok ts ∨
      maxTokens < count + ts.length ∧ ∃ found span,
        scan (α := α) v offset count pieces = .error ⟨.unexpected found .tooLong, span⟩ := by
  induction h generalizing offset count with
  | nil => exact .inl rfl
  | @cons p pieces us ts read some_token _ ih =>
    have positive : 0 < us.length := List.length_pos_iff.mpr some_token
    rw [List.length_append, scan]
    by_cases full : maxTokens ≤ count
    · exact .inr ⟨by omega, _, _, if_pos full⟩
    · rw [if_neg full, read offset]
      obtain later | ⟨long, found, span, later⟩ :=
        ih (offset + byteSize p.chars) (count + us.length)
      · refine .inl ?_
        simp only [bind, Except.bind, later]
        rfl
      · refine .inr ⟨by omega, found, span, ?_⟩
        simp only [bind, Except.bind, later]

theorem yields_of_reads {v : String} {pieces : List Piece} {ts : List (Token α)}
    (reads : List.Forall₂ (Reads v) pieces ts) : Yields v pieces ts := by
  induction reads with
  | nil => exact .nil
  | cons read _ ih => exact .cons read (List.cons_ne_nil _ _) ih

theorem scan_of_reads {v : String} {pieces : List Piece} {ts : List (Token α)}
    (reads : List.Forall₂ (Reads v) pieces ts) (offset count : Nat)
    (fits : count + ts.length ≤ maxTokens) : scan v offset count pieces = .ok ts :=
  ((yields_of_reads reads).scan_cases offset count).resolve_right fun long =>
    absurd long.1 (Nat.not_lt.mpr fits)

theorem scan_tooLong {v : String} {pieces : List Piece} {ts : List (Token α)}
    (reads : List.Forall₂ (Reads v) pieces ts) (offset count : Nat) (start : count ≤ maxTokens)
    (long : maxTokens < count + ts.length) :
    ∃ found span, scan (α := α) v offset count pieces =
      .error ⟨.unexpected found .tooLong, span⟩ := by
  induction reads generalizing offset count with
  | nil => simp only [List.length_nil] at long; omega
  | @cons p t pieces ts read _ ih =>
    by_cases full : maxTokens ≤ count
    · exact ⟨_, _, by rw [scan, if_pos full]⟩
    · simp only [List.length_cons] at long
      obtain ⟨found, span, rest⟩ := ih (offset + byteSize p.chars) (count + 1) (by omega) (by omega)
      refine ⟨found, span, ?_⟩
      rw [scan, if_neg full, read offset]
      simp only [bind, Except.bind, List.length_singleton, rest]

/-- A character that is a token of its own and leaves its neighbours alone. -/
structure IsSign (v : String) (c : Char) (t : Token α) : Prop where
  reads : Reads v (.single c) t
  isNumeric : Piece.isNumeric c = false
  isAlphabetic : isAlphabetic c = false
  isSmall : IsSmall c

/-- `Spells v cs ts` says that the pieces of the small characters `cs` are the tokens `ts`. No star
stands at an end, so a star may be put there. -/
structure Spells (v : String) (cs : List Char) (ts : List (Token α)) : Prop where
  reads : List.Forall₂ (Reads v) (Piece.ofChars cs) ts
  isSmall : ∀ c ∈ cs, IsSmall c
  head : cs.head? ≠ some '*'
  last : cs.getLast? ≠ some '*'

theorem reads_append {v : String} {xs ys : List Char} {ts us : List (Token α)}
    (left : List.Forall₂ (Reads v) (Piece.ofChars xs) ts)
    (right : List.Forall₂ (Reads v) (Piece.ofChars ys) us) (apart : Piece.Apart xs ys) :
    List.Forall₂ (Reads v) (Piece.ofChars (xs ++ ys)) (ts ++ us) := by
  rw [Piece.ofChars_append apart]
  exact List.rel_append left right

namespace IsSign

variable {v : String} {c : Char} {t : Token α}

theorem op (v : String) (o : Op) : ∃ c, o.symbol.toList = [c] ∧ IsSign v c (.op o : Token α) := by
  cases o with
  | add => exact ⟨'+', by decide, fun _ => rfl, by decide, by decide, by decide⟩
  | sub => exact ⟨'-', by decide, fun _ => rfl, by decide, by decide, by decide⟩
  | mul => exact ⟨'*', by decide, fun _ => rfl, by decide, by decide, by decide⟩
  | div => exact ⟨'/', by decide, fun _ => rfl, by decide, by decide, by decide⟩
  | pow => exact ⟨'^', by decide, fun _ => rfl, by decide, by decide, by decide⟩

theorem opening (v : String) : IsSign v '(' (.opening : Token α) :=
  ⟨fun _ => rfl, by decide, by decide, by decide⟩

theorem closing (v : String) : IsSign v ')' (.closing : Token α) :=
  ⟨fun _ => rfl, by decide, by decide, by decide⟩

theorem ofChars (h : IsSign v c t) : Piece.ofChars [c] = [.single c] := by
  simp [Piece.ofChars, Piece.cons, h.isNumeric, h.isAlphabetic]

theorem glued_left (h : IsSign v c t) (d : Char) (lone : c = '*' → d ≠ '*') :
    Piece.glued d c = false := by
  have := h.isNumeric
  have := h.isAlphabetic
  by_cases star : c = '*' <;> simp_all [Piece.glued]

theorem glued_right (h : IsSign v c t) (d : Char) (lone : c = '*' → d ≠ '*') :
    Piece.glued c d = false := by
  have := h.isNumeric
  have := h.isAlphabetic
  by_cases star : c = '*' <;> simp_all [Piece.glued]

theorem apart (h : IsSign v c t) {rest : List Char} (lone : c = '*' → rest.head? ≠ some '*') :
    Piece.Apart [c] rest := by
  intro x hx d hd
  obtain rfl : c = x := by simpa using hx
  refine h.glued_right d fun star next => lone star ?_
  rw [← next]
  exact hd

theorem ofChars_cons (h : IsSign v c t) {rest : List Char}
    (lone : c = '*' → rest.head? ≠ some '*') :
    Piece.ofChars (c :: rest) = .single c :: Piece.ofChars rest := by
  rw [← List.singleton_append, Piece.ofChars_append (h.apart lone), h.ofChars]
  rfl

end IsSign

namespace Spells

variable {v : String} {xs ys : List Char} {ts us : List (Token α)}

theorem nil (v : String) : Spells v [] ([] : List (Token α)) :=
  ⟨.nil, by simp, by simp, by simp⟩

theorem ne_nil (h : Spells v xs ts) (some_token : ts ≠ []) : xs ≠ [] := by
  rintro rfl
  have := h.reads.length_eq
  cases ts with
  | nil => exact some_token rfl
  | cons t ts => simp [Piece.ofChars] at this

/-- A sign between two texts. A star must not come to an end. -/
theorem join {c : Char} {t : Token α} (left : Spells v xs ts) (sign : IsSign v c t)
    (right : Spells v ys us) (inside : c = '*' → ts ≠ [] ∧ us ≠ []) :
    Spells v (xs ++ c :: ys) (ts ++ t :: us) := by
  have before : Piece.Apart xs (c :: ys) := by
    intro d hd x hx
    obtain rfl : c = x := by simpa using hx
    exact sign.glued_left d fun _ star => left.last (by rw [← star]; exact hd)
  have after : Piece.Apart [c] ys := sign.apart fun _ => right.head
  refine ⟨?_, ?_, ?_, ?_⟩
  · refine reads_append left.reads ?_ before
    have alone : List.Forall₂ (Reads v) (Piece.ofChars [c]) [t] := by
      rw [sign.ofChars]
      exact .cons sign.reads .nil
    exact reads_append alone right.reads after
  · intro d hd
    rcases List.mem_append.mp hd with hd | hd
    · exact left.isSmall d hd
    · rcases List.mem_cons.mp hd with rfl | hd
      · exact sign.isSmall
      · exact right.isSmall d hd
  · cases xs with
    | nil =>
      intro star
      obtain rfl : c = '*' := by simpa using star
      exact left.ne_nil (inside rfl).1 rfl
    | cons x xs => exact left.head
  · cases ys with
    | nil =>
      intro star
      obtain rfl : c = '*' := by simpa using star
      exact right.ne_nil (inside rfl).2 rfl
    | cons y ys => simpa using right.last

theorem enclosed (h : Spells v xs ts) :
    Spells v ('(' :: xs ++ [')']) (.opening :: ts ++ [.closing]) :=
  ((nil v).join (.opening v) h (by simp)).join (.closing v) (nil v) (by simp)

theorem number {d : Decimal} (decimal : Decimal.ofChars? xs = some d) :
    Spells v xs [(.num (Numeral.ofDecimal d) : Token α)] := by
  obtain ⟨some_char, numeric⟩ := Decimal.isNumeric_of_ofChars? decimal
  obtain ⟨c, cs, rfl⟩ := List.exists_cons_of_ne_nil some_char
  have star : ∀ x ∈ c :: cs, x ≠ '*' := by
    rintro x hx rfl
    exact absurd (numeric _ hx) (by decide)
  refine ⟨?_, fun x hx => Piece.isSmall_of_isNumeric (numeric x hx), ?_, ?_⟩
  · rw [Piece.ofChars_number numeric]
    exact .cons (fun offset => by simp only [tokens, decimal]) .nil
  · exact fun h => star '*' (List.mem_of_head? h) rfl
  · exact fun h => star '*' (List.mem_of_getLast? h) rfl

/-- A name that is a word by itself. -/
theorem word {name : Name} (some_char : name.text.toList ≠ [])
    (letters : ∀ c ∈ name.text.toList, Text.isAlphabetic c = true)
    (small : ∀ c ∈ name.text.toList, IsSmall c)
    (found : name? v name.text.toList = some name) :
    Spells v name.text.toList [(name.token : Token α)] := by
  have star : ∀ x ∈ name.text.toList, x ≠ '*' := by
    rintro x hx rfl
    exact absurd (letters _ hx) (by decide)
  refine ⟨?_, small, ?_, ?_⟩
  · have split (offset : Nat) :
        splitWord v offset 0 name.text.toList = .ok [(name.token : Token α)] := by
      have alone : name? v (name.text.toList ++ []) = some name := by simpa using found
      have h := splitWord_name (α := α) some_char alone offset
      rw [List.append_nil] at h
      exact h
    obtain ⟨c, cs, h⟩ := List.exists_cons_of_ne_nil some_char
    rw [h] at letters split ⊢
    rw [Piece.ofChars_word letters]
    exact .cons split .nil
  · exact fun h => star '*' (List.mem_of_head? h) rfl
  · exact fun h => star '*' (List.mem_of_getLast? h) rfl

theorem func (v : String) (f : Func) : Spells v f.name.toList [(.func f : Token α)] :=
  @word α _ v (.func f) f.name_ne_nil f.isAlphabetic_of_mem_name f.isSmall_of_mem_name
    (name?_func v f)

theorem var (h : IsVariable v) : Spells v v.toList [(.var v : Token α)] :=
  @word α _ v (.var v) h.toList_ne_nil h.letters h.isSmall (name?_var h)

end Spells

/-- The characters of a text without its blanks. -/
def squeeze (text : String) : List Char := text.toList.filter (! isBlank ·)

@[simp] theorem squeeze_append (s t : String) : squeeze (s ++ t) = squeeze s ++ squeeze t := by
  simp [squeeze]

theorem squeeze_eq_toList {text : String} (h : ∀ c ∈ text.toList, isBlank c = false) :
    squeeze text = text.toList := by
  rw [squeeze, List.filter_eq_self]
  exact fun c hc => by simp [h c hc]

theorem toList_clean {text : String} (small : ∀ c ∈ squeeze text, IsSmall c) :
    (clean text).toList = squeeze text := by
  rw [clean, String.toList_ofList]
  exact lowercaseAfter_eq_self small false

/-- A spelled text is read as its tokens if these are not too many. -/
theorem tokenize_of_spells {v w input : String} {ts : List (Token α)} (same : lower v = w)
    (spells : Spells w (squeeze input) ts) (fits : ts.length ≤ maxTokens) :
    tokenize v input = .ok (insertProducts ts) := by
  have read := scan_of_reads spells.reads 0 0 (by omega)
  simp only [tokenize, same, toList_clean spells.isSmall, read]

theorem tokenize_of_scan_tooLong {v input found : String} {span : Span}
    (read : scan (α := α) (lower v) 0 0 (Piece.ofChars (clean input).toList) =
      .error ⟨.unexpected found .tooLong, span⟩) :
    ∃ error found, tokenize (α := α) v input = .error error ∧
      error.problem = .unexpected found .tooLong := by
  refine ⟨Mistake.inText ⟨.unexpected found .tooLong, span⟩ (clean input), found, ?_, rfl⟩
  simp only [tokenize, read]

theorem tokenize_tooLong {v w input : String} {ts : List (Token α)} (same : lower v = w)
    (spells : Spells w (squeeze input) ts) (long : maxTokens < ts.length) :
    ∃ error found, tokenize (α := α) v input = .error error ∧
      error.problem = .unexpected found .tooLong := by
  obtain ⟨found, span, read⟩ := scan_tooLong spells.reads 0 0 (Nat.zero_le _) (by omega)
  rw [← same, ← toList_clean spells.isSmall] at read
  exact tokenize_of_scan_tooLong read

end Lexer

end Univariate
