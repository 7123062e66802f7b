import PatchReview.Json.Reader
import PatchReview.Json.Written

/-!
# Numbers are read back

The digits of a number are taken as far as they go, so what follows a number must not go on with it
(`IsBoundary`): no digit, no point, no exponent. What follows a value in a JSON text never does. A
whole number has no zero before another digit, hence its digits are all taken (`readWhole_toDigits`).
-/

namespace PatchReview.Json

/-! ## Digits -/

theorem isDigit_eq (c : Char) : isDigit c = c.isDigit := rfl

theorem isDigit_of_mem_toDigits (n : Nat) : ∀ c ∈ Nat.toDigits 10 n, isDigit c = true := by
  intro c hc
  rw [isDigit_eq]
  exact Nat.isDigit_of_mem_toDigits (by decide) (by decide) hc

theorem isDigit_of_mem_decimalChars (ds : List (Fin 10)) : ∀ c ∈ decimalChars ds, isDigit c = true := by
  intro c hc
  obtain ⟨d, -, rfl⟩ := List.mem_map.1 hc
  rw [isDigit_eq, Nat.isDigit_digitChar, decide_eq_true d.isLt]

theorem decimalChars_ne_nil {ds : List (Fin 10)} (h : ds ≠ []) : decimalChars ds ≠ [] := by
  rw [decimalChars]
  exact mt List.map_eq_nil_iff.1 h

theorem digitsValue_eq (cs : List Char) : digitsValue cs = Nat.ofDigitChars 10 cs 0 := by
  have hstep : (fun (n : Nat) (c : Char) => n * 10 + (c.toNat - 48))
      = fun n c => 10 * n + (c.toNat - '0'.toNat) := by
    funext n c
    rw [Nat.mul_comm]
    rfl
  rw [digitsValue, hstep, Nat.ofDigitChars_eq_foldl]

theorem digitsValue_toDigits (n : Nat) : digitsValue (Nat.toDigits 10 n) = n := by
  rw [digitsValue_eq, Nat.ofDigitChars_ten_toDigits]

theorem digitsValue_decimalChars (ds : List (Fin 10)) : digitsValue (decimalChars ds) = decimal ds := by
  rw [digitsValue, decimalChars, List.foldl_map, decimal]
  congr 1
  funext n d
  rw [Nat.toNat_digitChar_sub_48_of_lt_ten d.isLt]

/-- The number written by one run of digits after another. -/
theorem digitsValue_append (cs ds : List Char) :
    digitsValue (cs ++ ds) = digitsValue cs * Nat.pow 10 ds.length + digitsValue ds := by
  simp only [digitsValue_eq, Nat.ofDigitChars_append]
  rw [Nat.ofDigitChars_eq_ofDigitChars_zero, Nat.mul_comm]
  rfl

theorem exists_toDigits_cons (n : Nat) : ∃ c ds, Nat.toDigits 10 n = c :: ds ∧ isDigit c = true := by
  obtain ⟨c, ds, hds⟩ := List.exists_cons_of_ne_nil (Nat.toDigits_ne_nil (n := n) (b := 10))
  exact ⟨c, ds, hds, isDigit_of_mem_toDigits n c (hds ▸ List.mem_cons_self)⟩

/-- A number above zero does not begin with a zero. -/
theorem toDigits_ne_zero_cons {n : Nat} (h : 0 < n) (ds : List Char) : Nat.toDigits 10 n ≠ '0' :: ds := by
  induction n using Nat.strongRecOn generalizing ds with
  | ind n ih =>
      intro hds
      by_cases hsmall : n < 10
      · rw [Nat.toDigits_of_lt_base hsmall] at hds
        exact absurd (Nat.digitChar_eq_zero.1 (List.cons.inj hds).1) (by omega)
      · rw [Nat.toDigits_of_base_le (by decide) (by omega)] at hds
        obtain ⟨hnil, -⟩ | ⟨more, hmore, -⟩ := List.append_eq_cons_iff.1 hds
        · exact Nat.toDigits_ne_nil hnil
        · exact ih (n / 10) (by omega) (by omega) more hmore

/-! ## What may follow a number -/

/-- Whether a text does not go on with a number. -/
def IsBoundary (rest : List Char) : Prop :=
  ∀ c ∈ rest.head?, isDigit c = false ∧ c ≠ '.' ∧ c ≠ 'e' ∧ c ≠ 'E'

/-- Digits that are followed by none are taken. -/
theorem takeWhile_digits {ds rest : List Char} (hds : ∀ c ∈ ds, isDigit c = true)
    (hrest : ∀ c ∈ rest.head?, isDigit c = false) :
    (ds ++ rest).takeWhile isDigit = ds ∧ (ds ++ rest).dropWhile isDigit = rest := by
  rw [List.takeWhile_append_of_pos hds, List.dropWhile_append_of_pos hds]
  cases rest with
  | nil => exact ⟨List.append_nil ds, rfl⟩
  | cons c rest =>
      have hc : ¬isDigit c = true := by rw [hrest c rfl]; decide
      rw [List.takeWhile_cons_of_neg hc, List.dropWhile_cons_of_neg hc]
      exact ⟨List.append_nil ds, rfl⟩

theorem readWhole_toDigits (n : Nat) {rest : List Char} (hrest : ∀ c ∈ rest.head?, isDigit c = false) :
    readWhole (Nat.toDigits 10 n ++ rest) = some (Nat.toDigits 10 n, rest) := by
  obtain ⟨htake, hdrop⟩ := takeWhile_digits (isDigit_of_mem_toDigits n) hrest
  obtain rfl | hpos := Nat.eq_zero_or_pos n
  · rfl
  · rw [readWhole, htake, hdrop]
    · simp only [List.isEmpty_iff, Nat.toDigits_ne_nil, if_false]
    · intro more hmore
      obtain ⟨hnil, -⟩ | ⟨ds, hds, -⟩ := List.append_eq_cons_iff.1 hmore
      · exact Nat.toDigits_ne_nil hnil
      · exact toDigits_ne_zero_cons hpos ds hds

theorem readFraction_fractionChars {ds : List (Fin 10)} (h : ds ≠ []) {rest : List Char}
    (hrest : ∀ c ∈ rest.head?, isDigit c = false) :
    readFraction (Numeral.fractionChars ds ++ rest) = some (decimalChars ds, rest) := by
  obtain ⟨htake, hdrop⟩ := takeWhile_digits (isDigit_of_mem_decimalChars ds) hrest
  rw [Numeral.fractionChars, if_neg (by simpa using h), List.cons_append, readFraction, htake, hdrop]
  simp only [List.isEmpty_iff, decimalChars_ne_nil h, if_false]

theorem readFraction_none {rest : List Char} (hrest : ∀ c ∈ rest.head?, c ≠ '.') :
    readFraction rest = none := by
  cases rest with
  | nil => rfl
  | cons c rest =>
      rw [readFraction]
      intro more hmore
      exact hrest c rfl (List.cons.inj hmore).1

theorem readExponent_none {rest : List Char} (hrest : ∀ c ∈ rest.head?, c ≠ 'e' ∧ c ≠ 'E') :
    readExponent rest = none := by
  cases rest with
  | nil => rfl
  | cons c rest =>
      obtain ⟨hsmall, hlarge⟩ := hrest c rfl
      exact if_neg fun h => h.elim hsmall hlarge

theorem readExponent_exponentChars (minus : Bool) {ds : List (Fin 10)} (h : ds ≠ []) {rest : List Char}
    (hrest : ∀ c ∈ rest.head?, isDigit c = false) :
    readExponent (Numeral.exponentChars (some (minus, ds)) ++ rest)
      = some (if minus then -(decimal ds : Int) else decimal ds, rest) := by
  obtain ⟨htake, hdrop⟩ := takeWhile_digits (isDigit_of_mem_decimalChars ds) hrest
  cases minus with
  | true =>
      simp only [Numeral.exponentChars, if_true, List.cons_append, readExponent, true_or, htake, hdrop,
        List.isEmpty_iff, decimalChars_ne_nil h, if_false, digitsValue_decimalChars]
  | false =>
      simp only [Numeral.exponentChars, Bool.false_eq_true, if_false, List.cons_append, readExponent,
        true_or, if_true, htake, hdrop, List.isEmpty_iff, decimalChars_ne_nil h, digitsValue_decimalChars]

/-! ## Whole numbers and numerals -/

theorem readMagnitude_toDigits (negative : Bool) (n : Nat) {rest : List Char} (hrest : IsBoundary rest) :
    readMagnitude negative (Nat.toDigits 10 n ++ rest)
      = some (integer (if negative then -(n : Int) else n), rest) := by
  have hwhole := readWhole_toDigits n fun c hc => (hrest c hc).1
  have hfraction := readFraction_none fun c hc => (hrest c hc).2.1
  have hexponent := readExponent_none fun c hc => (hrest c hc).2.2
  simp only [readMagnitude, hwhole, hfraction, hexponent, digitsValue_toDigits]

/-- What follows the exponent of a numeral is what the reader goes on with, and the exponent is read. -/
theorem readExponent_exponent (n : Numeral) {rest : List Char} (hrest : IsBoundary rest) :
    (readExponent (Numeral.exponentChars n.exponent ++ rest)).getD
        (0, Numeral.exponentChars n.exponent ++ rest) = (n.power, rest) := by
  cases hexponent : n.exponent with
  | none =>
      have hnone := readExponent_none fun c hc => (hrest c hc).2.2
      rw [Numeral.exponentChars, List.nil_append, hnone, Option.getD_none, Numeral.power, hexponent]
  | some e =>
      obtain ⟨minus, ds⟩ := e
      have hfilled : ds ≠ [] := n.isFilled (minus, ds) hexponent
      rw [readExponent_exponentChars minus hfilled fun c hc => (hrest c hc).1, Option.getD_some,
        Numeral.power, hexponent]

/-- What follows the digits of a numeral begins with none. -/
theorem isDigit_exponentChars (n : Numeral) {rest : List Char} (hrest : IsBoundary rest) :
    ∀ c ∈ (Numeral.exponentChars n.exponent ++ rest).head?, isDigit c = false := by
  cases n.exponent with
  | none => exact fun c hc => (hrest c hc).1
  | some e =>
      rintro c ⟨⟩
      decide

theorem readMagnitude_numeral (n : Numeral) {rest : List Char} (hrest : IsBoundary rest) :
    readMagnitude n.negative (n.magnitudeChars ++ rest) = some (real n.value, rest) := by
  have htail := isDigit_exponentChars n hrest
  have hexponent := readExponent_exponent n hrest
  rw [Numeral.magnitudeChars, List.append_assoc, List.append_assoc]
  by_cases hfraction : n.fraction = []
  · -- without a fraction there is an exponent, directly after the whole part
    have hmarked : n.exponent ≠ none := n.isMarked.resolve_left fun h => h hfraction
    obtain ⟨e, he⟩ := Option.ne_none_iff_exists'.1 hmarked
    have hpoint : readFraction (Numeral.exponentChars n.exponent ++ rest) = none := by
      refine readFraction_none ?_
      rw [he]
      rintro c ⟨⟩
      decide
    obtain ⟨p, hp⟩ : ∃ p, readExponent (Numeral.exponentChars n.exponent ++ rest) = some p := by
      obtain ⟨minus, ds⟩ := e
      rw [he]
      exact ⟨_, readExponent_exponentChars minus (n.isFilled _ he) fun c hc => (hrest c hc).1⟩
    obtain rfl : p = (n.power, rest) := by rwa [hp] at hexponent
    rw [hfraction, Numeral.fractionChars, if_pos List.isEmpty_nil, List.nil_append]
    simp only [readMagnitude, readWhole_toDigits n.whole htail, hpoint, hp, digitsValue_toDigits]
    rw [Numeral.value, hfraction]
    simp [decimal]
  · have hpoint : ∀ c ∈ (Numeral.fractionChars n.fraction
        ++ (Numeral.exponentChars n.exponent ++ rest)).head?, isDigit c = false := by
      rw [Numeral.fractionChars, if_neg (by simpa using hfraction)]
      rintro c ⟨⟩
      decide
    simp only [readMagnitude, readWhole_toDigits n.whole hpoint, readFraction_fractionChars hfraction htail, hexponent,
      digitsValue_append, digitsValue_toDigits, digitsValue_decimalChars]
    rw [Numeral.value, decimalChars, List.length_map]

/-! ## With the sign -/

/-- A digit in front, or a sign and a digit, is no word. -/
theorem readScalar_digit {c : Char} (hc : isDigit c = true) (rest : List Char) :
    readScalar (c :: rest) = readMagnitude false (c :: rest)
      ∧ readScalar ('-' :: c :: rest) = readMagnitude true (c :: rest) := by
  have hne : ∀ d more, isDigit d = false → c :: rest ≠ d :: more := by
    intro d more hd heq
    rw [(List.cons.inj heq).1, hd] at hc
    exact Bool.noConfusion hc
  constructor
  · rw [readScalar]
    · exact fun more => hne 'n' more (by decide)
    · exact fun more => hne 't' more (by decide)
    · exact fun more => hne 'f' more (by decide)
    · exact fun more => hne 'N' more (by decide)
    · exact fun more => hne 'I' more (by decide)
    · exact fun more => hne '-' ('I' :: more) (by decide)
    · exact fun more => hne '-' more (by decide)
  · rw [readScalar]
    exact fun more => hne 'I' more (by decide)

/-- The digits of a number, with or without a sign, are read as a number of that sign. -/
theorem readScalar_toDigits (n : Nat) (rest : List Char) :
    readScalar (Nat.toDigits 10 n ++ rest) = readMagnitude false (Nat.toDigits 10 n ++ rest)
      ∧ readScalar ('-' :: (Nat.toDigits 10 n ++ rest))
        = readMagnitude true (Nat.toDigits 10 n ++ rest) := by
  obtain ⟨c, ds, hds, hc⟩ := exists_toDigits_cons n
  rw [hds, List.cons_append]
  exact readScalar_digit hc _

theorem readScalar_integerChars (n : Int) {rest : List Char} (hrest : IsBoundary rest) :
    readScalar (integerChars n ++ rest) = some (integer n, rest) := by
  obtain ⟨hplain, hsigned⟩ := readScalar_toDigits n.natAbs rest
  rw [integerChars]
  by_cases hn : n < 0
  · have hvalue : -(n.natAbs : Int) = n := by omega
    rw [if_pos hn, List.cons_append, hsigned, readMagnitude_toDigits true _ hrest, if_pos rfl, hvalue]
  · have hvalue : (n.natAbs : Int) = n := by omega
    rw [if_neg hn, hplain, readMagnitude_toDigits false _ hrest, if_neg Bool.false_ne_true, hvalue]

theorem readScalar_numeral (n : Numeral) {rest : List Char} (hrest : IsBoundary rest) :
    readScalar (n.chars ++ rest) = some (real n.value, rest) := by
  have hread := readMagnitude_numeral n hrest
  have hsplit : n.magnitudeChars ++ rest = Nat.toDigits 10 n.whole
      ++ (Numeral.fractionChars n.fraction ++ (Numeral.exponentChars n.exponent ++ rest)) := by
    rw [Numeral.magnitudeChars, List.append_assoc, List.append_assoc]
  obtain ⟨hplain, hsigned⟩ := readScalar_toDigits n.whole
    (Numeral.fractionChars n.fraction ++ (Numeral.exponentChars n.exponent ++ rest))
  rw [← hsplit] at hplain hsigned
  rw [Numeral.chars]
  cases hn : n.negative with
  | true => rw [if_pos rfl, List.cons_append, hsigned, ← hread, hn]
  | false => rw [if_neg Bool.false_ne_true, hplain, ← hread, hn]

/-- Whether a text begins with the sign or with a digit of a number. -/
def StartsNumber (cs : List Char) : Prop := ∃ c ds, cs = c :: ds ∧ (isDigit c = true ∨ c = '-')

theorem startsNumber_toDigits (n : Nat) (rest : List Char) : StartsNumber (Nat.toDigits 10 n ++ rest) := by
  obtain ⟨c, ds, hds, hc⟩ := exists_toDigits_cons n
  exact ⟨c, ds ++ rest, by rw [hds]; rfl, .inl hc⟩

theorem startsNumber_integerChars (n : Int) : StartsNumber (integerChars n) := by
  rw [integerChars]
  split
  · exact ⟨'-', _, rfl, .inr rfl⟩
  · have hdigits := startsNumber_toDigits n.natAbs []
    rwa [List.append_nil] at hdigits

theorem startsNumber_numeral (n : Numeral) : StartsNumber n.chars := by
  rw [Numeral.chars]
  split
  · exact ⟨'-', _, rfl, .inr rfl⟩
  · rw [Numeral.magnitudeChars, List.append_assoc]
    exact startsNumber_toDigits n.whole _

end PatchReview.Json
