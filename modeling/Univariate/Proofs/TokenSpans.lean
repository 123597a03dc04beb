import Univariate.Expr.Parser
import Univariate.Number.Decimal.Lemmas
import Univariate.Number.Double
import Univariate.Proofs.Spelling

/-!
# Where errors point

An error of the parser has a stretch of the texts of all tokens, written one after the other. Every
token has a text, unless it is a variable without a name, so the stretch tells which token is meant,
and an empty one means the end.
-/
namespace Univariate

variable {α : Type} [Numeral α]

/-- The stretch of the token of an index. The number of tokens stands for the end. -/
def Token.span (ts : List (Token α)) (index : Nat) : Span :=
  ⟨(String.join ((ts.take index).map text)).utf8ByteSize,
    ((ts[index]?.map text).map String.utf8ByteSize).getD 0⟩

/-- The error is about the tokens and points at the one of an index, or at their end. -/
structure ParseError.PointsAt (error : ParseError) (ts : List (Token α)) (index : Nat) : Prop where
  le : index ≤ ts.length
  source : error.source = String.join (ts.map Token.text)
  span : error.span = Token.span ts index

theorem Fault.pointsAt_locate {ts : List (Token α)} {fault : Fault}
    (le : fault.index ≤ ts.length) : (fault.locate ts).PointsAt ts fault.index := by
  refine ⟨le, rfl, ?_⟩
  simp only [locate, Token.span, List.map_take, List.getElem?_map]

namespace Token

@[simp] theorem offset_span_zero (ts : List (Token α)) : (span ts 0).offset = 0 := rfl

@[simp] theorem offset_span_succ (t : Token α) (ts : List (Token α)) (index : Nat) :
    (span (t :: ts) (index + 1)).offset = t.text.utf8ByteSize + (span ts index).offset := by
  simp [span, String.join_cons]

/-- Where no text is empty, the tokens start at different places. -/
theorem index_eq_of_offset_eq {ts : List (Token α)} (written : ∀ t ∈ ts, t.text ≠ "") {i j : Nat}
    (hi : i ≤ ts.length) (hj : j ≤ ts.length) (same : (span ts i).offset = (span ts j).offset) :
    i = j := by
  induction ts generalizing i j with
  | nil => exact (Nat.eq_zero_of_le_zero hi).trans (Nat.eq_zero_of_le_zero hj).symm
  | cons t ts ih =>
    have some_byte : t.text.utf8ByteSize ≠ 0 :=
      mt String.utf8ByteSize_eq_zero_iff.mp (written t List.mem_cons_self)
    cases i with
    | zero =>
      cases j with
      | zero => rfl
      | succ j =>
        rw [offset_span_zero, offset_span_succ] at same
        omega
    | succ i =>
      cases j with
      | zero =>
        rw [offset_span_zero, offset_span_succ] at same
        omega
      | succ j =>
        rw [offset_span_succ, offset_span_succ, Nat.add_left_cancel_iff] at same
        rw [ih (fun u hu => written u (List.mem_cons_of_mem t hu)) (Nat.le_of_succ_le_succ hi)
          (Nat.le_of_succ_le_succ hj) same]

end Token

theorem ParseError.PointsAt.unique {error : ParseError} {ts : List (Token α)} {i j : Nat}
    (h : error.PointsAt ts i) (h' : error.PointsAt ts j) (written : ∀ t ∈ ts, t.text ≠ "") :
    i = j :=
  Token.index_eq_of_offset_eq written h.le h'.le
    (congrArg Span.offset (h.span.symm.trans h'.span))

theorem Fault.pointsAt_locate_iff {ts : List (Token α)} {fault : Fault}
    (le : fault.index ≤ ts.length) (written : ∀ t ∈ ts, t.text ≠ "") (k : Nat) :
    (fault.locate ts).PointsAt ts k ↔ k = fault.index := by
  have points : (fault.locate ts).PointsAt ts fault.index := pointsAt_locate le
  refine ⟨fun h => h.unique points written, ?_⟩
  rintro rfl
  exact points

/-! ## Texts of doubles -/

theorem Decimal.text_ne_empty (d : Decimal) : d.text ≠ "" := by
  intro empty
  have nothing : d.chars = [] := by simpa [text] using empty
  have read := ofChars?_chars d
  rw [nothing] at read
  cases read

/-- A text of its own, or a minus or nothing before a text without a sign. -/
theorem Double.text_cases (x : Float) : text x = "NaN" ∨
    ∃ s, (s = "inf" ∨ s = "0" ∨ ∃ d : Decimal, s = d.text) ∧ (text x = s ∨ text x = "-" ++ s) := by
  have signed (s : String) : (if isSigned x then "-" else "") ++ s = s ∨
      (if isSigned x then "-" else "") ++ s = "-" ++ s := by
    split
    · exact .inr rfl
    · exact .inl String.empty_append
  unfold text textWith
  dsimp only
  split
  · exact .inl rfl
  · right
    split
    · exact ⟨"inf", .inl rfl, signed _⟩
    · split
      · exact ⟨"0", .inr (.inl rfl), signed _⟩
      · exact ⟨_, .inr (.inr ⟨_, rfl⟩), signed _⟩

theorem Double.text_ne_empty (x : Float) : text x ≠ "" := by
  obtain nan | ⟨s, unsigned, signed⟩ := text_cases x
  · rw [nan]
    decide
  · have nonempty : s ≠ "" := by
      rcases unsigned with rfl | rfl | ⟨d, rfl⟩
      · decide
      · decide
      · exact d.text_ne_empty
    rcases signed with same | same
    · rwa [same]
    · rw [same]
      simp

theorem Decimal.isBlank_of_mem_text {d : Decimal} {c : Char} (h : c ∈ d.text.toList) :
    Text.isBlank c = false := by
  rw [text, String.toList_ofList] at h
  exact Piece.isBlank_of_isNumeric ((isNumeric_of_ofChars? d.ofChars?_chars).2 c h)

theorem Double.isBlank_of_mem_text {x : Float} {c : Char} (h : c ∈ (text x).toList) :
    Text.isBlank c = false := by
  have visible : (text x).toList.all (! Text.isBlank ·) = true := by
    obtain nan | ⟨s, unsigned, signed⟩ := text_cases x
    · rw [nan]
      decide +kernel
    · have visible : s.toList.all (! Text.isBlank ·) = true := by
        rcases unsigned with rfl | rfl | ⟨d, rfl⟩
        · decide +kernel
        · decide +kernel
        · rw [List.all_eq_true]
          intro c hc
          rw [Decimal.isBlank_of_mem_text hc]
          rfl
      rcases signed with same | same
      · rwa [same]
      · rw [same, String.toList_append, List.all_append, visible]
        decide +kernel
  have char := List.all_eq_true.mp visible c h
  rwa [Bool.not_eq_true'] at char

theorem Token.text_ne_empty {ts : List (Token Float)} (named : .var "" ∉ ts) :
    ∀ t ∈ ts, t.text ≠ "" := by
  rintro (v | op | _ | _ | name | f) member
  · exact Double.text_ne_empty v
  · cases op <;> decide
  · decide
  · decide
  · rintro rfl
    exact named member
  · cases f <;> decide

end Univariate
