import Univariate.Number.Decimal

/-!
# Decimal notation reads back

Reading is described for digits without a point and with one. It undoes writing, so a decimal has
one text and two decimals never share one.
-/

namespace Univariate.Decimal

theorem isDigit_ne_point {c : Char} (h : c.isDigit) : c ≠ '.' := by
  rintro rfl; exact absurd h (by decide)

theorem ofChars?_whole {ds : List Char} (digits : ∀ c ∈ ds, c.isDigit) (some_digit : ds ≠ []) :
    ofChars? ds = some ⟨Nat.ofDigitChars 10 ds 0, 0⟩ := by
  have before : ∀ c ∈ ds, decide (c ≠ '.') = true := fun c hc =>
    decide_eq_true (isDigit_ne_point (digits c hc))
  have take : ds.takeWhile (· ≠ '.') = ds := by
    simpa using @List.takeWhile_append_of_pos _ _ ds [] before
  have drop : ds.dropWhile (· ≠ '.') = [] := by
    simpa using @List.dropWhile_append_of_pos _ _ ds [] before
  have all : ds.all Char.isDigit = true := List.all_eq_true.2 digits
  simp only [ofChars?, take, drop]
  simp_all

theorem ofChars?_point {whole fraction : List Char} (digits : ∀ c ∈ whole ++ fraction, c.isDigit)
    (some_digit : whole ++ fraction ≠ []) :
    ofChars? (whole ++ '.' :: fraction) =
      some ⟨Nat.ofDigitChars 10 (whole ++ fraction) 0, fraction.length⟩ := by
  have before : ∀ c ∈ whole, decide (c ≠ '.') = true := fun c hc =>
    decide_eq_true (isDigit_ne_point (digits c (List.mem_append_left _ hc)))
  have take : (whole ++ '.' :: fraction).takeWhile (· ≠ '.') = whole := by
    simpa using @List.takeWhile_append_of_pos _ _ whole ('.' :: fraction) before
  have drop : (whole ++ '.' :: fraction).dropWhile (· ≠ '.') = '.' :: fraction := by
    simpa using @List.dropWhile_append_of_pos _ _ whole ('.' :: fraction) before
  have all : (whole ++ fraction).all Char.isDigit = true := List.all_eq_true.2 digits
  simp only [ofChars?, take, drop, List.tail_cons, all]
  cases hd : whole ++ fraction <;> simp_all

theorem ofDigitChars_zeros (k : Nat) (ds : List Char) :
    Nat.ofDigitChars 10 (List.replicate k '0' ++ ds) 0 = Nat.ofDigitChars 10 ds 0 := by
  induction k with
  | zero => simp
  | succ k ih => simpa [List.replicate_succ, Nat.ofDigitChars_cons] using ih

theorem ofChars?_chars (d : Decimal) : ofChars? d.chars = some d := by
  obtain ⟨n, places⟩ := d
  have digits : ∀ c ∈ Nat.toDigits 10 n, c.isDigit := fun c hc =>
    Nat.isDigit_of_mem_toDigits (by decide) (by decide) hc
  by_cases h : places = 0
  · subst h
    simp only [chars, ↓reduceIte]
    rw [ofChars?_whole digits Nat.toDigits_ne_nil,
      Nat.ofDigitChars_toDigits (by decide) (by decide)]
  · simp only [chars, h, ↓reduceIte]
    have len := List.length_leftpad (n := places + 1) (a := '0') (l := Nat.toDigits 10 n)
    obtain ⟨k, pad⟩ : ∃ k, (Nat.toDigits 10 n).leftpad (places + 1) '0' =
      List.replicate k '0' ++ Nat.toDigits 10 n := ⟨_, rfl⟩
    rw [pad] at len ⊢
    rw [ofChars?_point, List.take_append_drop, ofDigitChars_zeros,
      Nat.ofDigitChars_toDigits (by decide) (by decide), List.length_drop]
    · congr; omega
    · rw [List.take_append_drop]
      intro c hc
      rcases List.mem_append.1 hc with hc | hc
      · rw [List.eq_of_mem_replicate hc]; rfl
      · exact digits c hc
    · rw [List.take_append_drop]
      simp [Nat.toDigits_ne_nil]

end Univariate.Decimal
