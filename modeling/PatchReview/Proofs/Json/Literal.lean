import PatchReview.Json.Reader
import PatchReview.Json.Written

/-!
# Strings are read back

Whatever a piece of a string is written as, the reader takes just that for units that are joined to the
piece (`exists_units`): a character beyond sixteen bits may be written as two halves, everything else is
one unit. No unit is a half that a literal's own pieces do not have, so joining all of them gives the
literal's pieces (`exists_units_charsOf`), and the string is read back (`readString_literal`).
-/

namespace PatchReview.Json

/-! ## Escapes -/

theorem hexValue?_hexDigit {n : Nat} (h : n < 16) : hexValue? (hexDigit n) = some n := by
  have hall : ∀ k : Fin 16, hexValue? (hexDigit k) = some k.val := by decide
  exact hall ⟨n, h⟩

theorem readHex4_hexDigits {n : Nat} (h : n < 0x10000) (rest : List Char) :
    readHex4 (hexDigits n ++ rest) = some (n, rest) := by
  have hfirst := hexValue?_hexDigit (n := n / 4096) (by omega)
  have hsecond := hexValue?_hexDigit (n := n / 256 % 16) (by omega)
  have hthird := hexValue?_hexDigit (n := n / 16 % 16) (by omega)
  have hlast := hexValue?_hexDigit (n := n % 16) (by omega)
  have hsum : n / 4096 * 4096 + n / 256 % 16 * 256 + n / 16 % 16 * 16 + n % 16 = n := by omega
  simp only [hexDigits, List.cons_append, List.nil_append, readHex4, hfirst, hsecond, hthird, hlast,
    Option.bind_eq_bind, Option.bind_some, Option.pure_def, hsum]

theorem readEscape_unit {n : Nat} (h : n < 0x10000) (rest : List Char) :
    readEscape ('u' :: (hexDigits n ++ rest)) = some (pieceOf n, rest) := by
  rw [readEscape, readHex4_hexDigits h]
  rfl

theorem pieceOf_high (n : Fin 1024) : pieceOf (0xD800 + n) = .high n := by
  have hn : (Fin.ofNat 1024 (0xD800 + n.val - 0xD800)) = n := by
    ext
    simp
  rw [pieceOf, if_pos (by omega), hn]

theorem pieceOf_low (n : Fin 1024) : pieceOf (0xDC00 + n) = .low n := by
  have hn : (Fin.ofNat 1024 (0xDC00 + n.val - 0xDC00)) = n := by
    ext
    simp
  rw [pieceOf, if_neg (by omega), if_pos (by omega), hn]

/-- The number of a character is that of no half. -/
theorem toNat_isScalar (c : Char) : c.toNat < 0xD800 ∨ 0xE000 ≤ c.toNat ∧ c.toNat < 0x110000 := by
  have h := c.valid
  unfold UInt32.isValidChar Nat.isValidChar at h
  have hval : c.val.toNat = c.toNat := rfl
  omega

theorem pieceOf_toNat (c : Char) : pieceOf c.toNat = .char c := by
  have hscalar := toNat_isScalar c
  rw [pieceOf, if_neg (by omega), if_neg (by omega), Char.ofNat_toNat]

/-- The two halves that a character is split into belong together. -/
theorem attach_split {c : Char} (h : 0x10000 ≤ c.toNat) (pieces : List Piece) :
    Piece.attach (pieceOf (0xD800 + (c.toNat - 0x10000) / 1024))
        (pieceOf (0xDC00 + (c.toNat - 0x10000) % 1024) :: pieces)
      = .char c :: pieces := by
  have hscalar := toNat_isScalar c
  have hhigh : (c.toNat - 0x10000) / 1024 < 1024 := by omega
  have hlow : (c.toNat - 0x10000) % 1024 < 1024 := by omega
  have hsum : 0x10000 + (c.toNat - 0x10000) / 1024 * 1024 + (c.toNat - 0x10000) % 1024 = c.toNat := by
    omega
  rw [pieceOf_high ⟨_, hhigh⟩, pieceOf_low ⟨_, hlow⟩]
  show Piece.char (Char.ofNat (0x10000 + _ * 1024 + _)) :: pieces = _
  rw [hsum, Char.ofNat_toNat]

theorem readEscape_short {c e : Char} (h : (c, e) ∈ shortEscapes) (rest : List Char) :
    readEscape (e :: rest) = some (.char c, rest) := by
  simp only [shortEscapes, List.mem_cons, Prod.mk.injEq, List.not_mem_nil, or_false] at h
  rcases h with ⟨rfl, rfl⟩ | ⟨rfl, rfl⟩ | ⟨rfl, rfl⟩ | ⟨rfl, rfl⟩ | ⟨rfl, rfl⟩ | ⟨rfl, rfl⟩ | ⟨rfl, rfl⟩
    <;> rfl

/-! ## Pieces -/

/-- A character is written as itself, with its short escape, or by its number. -/
theorem chars_char (ascii : Bool) (c : Char) :
    ((Piece.char c).chars ascii = [c] ∧ c ≠ '\x22' ∧ c ≠ '\\' ∧ ¬c.toNat < 0x20)
      ∨ (∃ e, (c, e) ∈ shortEscapes ∧ (Piece.char c).chars ascii = ['\\', e])
      ∨ (Piece.char c).chars ascii = escapedChar c := by
  rw [Piece.chars]
  cases hshort : shortEscapes.lookup c with
  | some e =>
      obtain ⟨before, after, hsplit, -⟩ := List.lookup_eq_some_iff.1 hshort
      exact .inr (.inl ⟨e, by rw [hsplit]; simp, rfl⟩)
  | none =>
      by_cases hplain : c.toNat < 0x20 ∨ (ascii = true ∧ 0x7F ≤ c.toNat)
      · exact .inr (.inr (if_pos hplain))
      · have hnone := List.lookup_eq_none_iff.1 hshort
        refine .inl ⟨if_neg hplain, ?_, ?_, fun h => hplain (.inl h)⟩
        · rintro rfl
          exact absurd (hnone ('\x22', '\x22') (by decide)) (by decide)
        · rintro rfl
          exact absurd (hnone ('\\', '\\') (by decide)) (by decide)

theorem readString_escape {cs rest : List Char} {p : Piece} (h : readEscape cs = some (p, rest))
    (fuel : Nat) (done : List Piece) :
    readString (fuel + 1) done ('\\' :: cs) = readString fuel (p :: done) rest := by
  rw [readString, if_neg (by decide), if_pos rfl, h]

/-- Sixteen bits are read as one unit. -/
theorem readString_escapedUnit {n : Nat} (h : n < 0x10000) (rest : List Char) (fuel : Nat)
    (done : List Piece) :
    readString (fuel + 1) done (escapedUnit n ++ rest) = readString fuel (pieceOf n :: done) rest :=
  readString_escape (readEscape_unit h rest) fuel done

/-- What some characters of a string are read as: units, no more than there are characters. -/
structure ReadsAs (cs : List Char) (units : List Piece) : Prop where
  length_le : units.length ≤ cs.length
  read      : ∀ fuel done rest, readString (fuel + units.length) done (cs ++ rest)
    = readString fuel (units.reverse ++ done) rest

theorem readsAs_escapedUnit {n : Nat} (h : n < 0x10000) : ReadsAs (escapedUnit n) [pieceOf n] :=
  ⟨Nat.succ_le_succ (Nat.zero_le _), fun fuel done rest => readString_escapedUnit h rest fuel done⟩

/-- One part is read after the other. -/
theorem ReadsAs.append {cs ds : List Char} {us vs : List Piece} (hcs : ReadsAs cs us)
    (hds : ReadsAs ds vs) : ReadsAs (cs ++ ds) (us ++ vs) := by
  refine ⟨?_, fun fuel done rest => ?_⟩
  · rw [List.length_append, List.length_append]
    exact Nat.add_le_add hcs.length_le hds.length_le
  · rw [List.length_append, List.append_assoc, Nat.add_comm us.length, ← Nat.add_assoc, hcs.read,
      hds.read, List.reverse_append, List.append_assoc]

/-- **A piece is read as units that are joined to it**, whatever stands after them. -/
theorem exists_units (ascii : Bool) (p : Piece) : ∃ units, ReadsAs (p.chars ascii) units ∧
    ∀ pieces, Piece.joined (units ++ pieces) = p.attach (Piece.joined pieces) := by
  cases p with
  | char c =>
      obtain ⟨h, hquote, hslash, hcontrol⟩ | ⟨e, hmem, h⟩ | h := chars_char ascii c
      · rw [h]
        refine ⟨[.char c], ⟨Nat.le_refl _, fun fuel done rest => ?_⟩, fun pieces => rfl⟩
        exact (if_neg hquote).trans ((if_neg hslash).trans (if_neg hcontrol))
      · rw [h]
        refine ⟨[.char c], ⟨Nat.le_succ _, fun fuel done rest => ?_⟩, fun pieces => rfl⟩
        exact readString_escape (readEscape_short hmem rest) fuel done
      · rw [h, escapedChar]
        by_cases hsize : c.toNat < 0x10000
        · rw [if_pos hsize]
          refine ⟨_, readsAs_escapedUnit hsize, fun pieces => ?_⟩
          rw [pieceOf_toNat]
          rfl
        · have hscalar := toNat_isScalar c
          rw [if_neg hsize]
          refine ⟨_, (readsAs_escapedUnit (by omega)).append (readsAs_escapedUnit (by omega)),
            fun pieces => ?_⟩
          have hlow : (c.toNat - 0x10000) % 1024 < 1024 := by omega
          have hsplit := attach_split (Nat.le_of_not_lt hsize) (Piece.joined pieces)
          rw [pieceOf_low ⟨_, hlow⟩] at hsplit ⊢
          rw [List.append_assoc, List.singleton_append, List.singleton_append, Piece.joined_cons,
            Piece.joined_cons]
          exact hsplit
  | high n =>
      refine ⟨_, readsAs_escapedUnit (by omega), fun pieces => ?_⟩
      rw [pieceOf_high]
      rfl
  | low n =>
      refine ⟨_, readsAs_escapedUnit (by omega), fun pieces => ?_⟩
      rw [pieceOf_low]
      rfl

/-! ## Whole strings -/

theorem isUnpaired_cons {p : Piece} {pieces : List Piece} (h : Piece.isUnpaired (p :: pieces) = true) :
    ((∃ n, p = .high n) → Piece.startsLow pieces = false) ∧ Piece.isUnpaired pieces = true := by
  cases p with
  | high n =>
      obtain ⟨hlow, hrest⟩ := Bool.and_eq_true_iff.1 h
      exact ⟨fun _ => by simpa using hlow, hrest⟩
  | char c => exact ⟨fun ⟨n, hp⟩ => Piece.noConfusion hp, h⟩
  | low m => exact ⟨fun ⟨n, hp⟩ => Piece.noConfusion hp, h⟩

/-- **Pieces are read as units that are joined to them**, if no two of them belong together. -/
theorem exists_units_charsOf (ascii : Bool) {pieces : List Piece}
    (h : Piece.isUnpaired pieces = true) :
    ∃ units, ReadsAs (pieces.flatMap (·.chars ascii)) units ∧ Piece.joined units = pieces := by
  induction pieces with
  | nil => exact ⟨[], ⟨Nat.le_refl _, fun _ _ _ => rfl⟩, rfl⟩
  | cons p pieces ih =>
      obtain ⟨hlow, hrest⟩ := isUnpaired_cons h
      obtain ⟨us, hus, hjoin⟩ := exists_units ascii p
      obtain ⟨vs, hvs, rfl⟩ := ih hrest
      exact ⟨us ++ vs, hus.append hvs, (hjoin vs).trans (Piece.attach_eq_cons hlow)⟩

/-- A literal after its opening quote is read back. -/
theorem readString_literal (ascii : Bool) (s : Literal) (rest : List Char) :
    readString ((Literal.charsOf ascii s.pieces ++ rest).length + 1) []
      (Literal.charsOf ascii s.pieces ++ rest) = some (s, rest) := by
  obtain ⟨pieces, hunpaired⟩ := s
  obtain ⟨units, hread, rfl⟩ := exists_units_charsOf ascii hunpaired
  obtain ⟨fuel, hfuel⟩ : ∃ fuel,
      (Literal.charsOf ascii (Piece.joined units) ++ rest).length + 1 = fuel + 1 + units.length := by
    refine ⟨(Literal.charsOf ascii (Piece.joined units) ++ rest).length - units.length, ?_⟩
    have hlength := hread.length_le
    rw [Literal.charsOf, List.length_append, List.length_append]
    omega
  rw [hfuel, Literal.charsOf, List.append_assoc, hread.read, List.append_nil]
  show some (Literal.ofPieces units.reverse.reverse, rest) = _
  rw [List.reverse_reverse]
  rfl

/-- Every text is written by a literal. -/
theorem text?_ofString (s : String) : (Literal.ofString s).text? = some s := by
  have hall : ∀ cs : List Char, (cs.map Piece.char).all (·.char?.isSome) = true := by
    intro cs
    rw [List.all_map]
    exact List.all_eq_true.2 fun _ _ => rfl
  have hchars : ∀ cs : List Char, (cs.map Piece.char).filterMap (·.char?) = cs := by
    intro cs
    rw [List.filterMap_map]
    exact List.filterMap_some
  rw [Literal.ofString, Literal.text?, if_pos (hall s.toList), hchars, String.ofList_toList]

/-- A text is written by one literal only. -/
theorem ofString_of_text? {s : Literal} {t : String} (h : s.text? = some t) : .ofString t = s := by
  obtain ⟨pieces, hunpaired⟩ := s
  rw [Literal.text?] at h
  by_cases hall : pieces.all (·.char?.isSome) = true
  · rw [if_pos hall] at h
    have hpieces : (pieces.filterMap (·.char?)).map Piece.char = pieces := by
      clear h hunpaired
      induction pieces with
      | nil => rfl
      | cons p pieces ih =>
          rw [List.all_cons, Bool.and_eq_true] at hall
          cases p with
          | char c => exact congrArg (Piece.char c :: ·) (ih hall.2)
          | high n => exact nomatch hall.1
          | low n => exact nomatch hall.1
    simp only [Literal.ofString, Literal.mk.injEq]
    rw [← Option.some.inj h, String.toList_ofList, hpieces]
  · rw [if_neg hall] at h
    exact nomatch h

theorem ofLiteral_ofString (s : String) : ofLiteral (.ofString s) = .string s := by
  have htext := text?_ofString s
  unfold ofLiteral
  split
  · rename_i t h
    rw [htext] at h
    rw [Option.some.inj h]
  · rename_i h
    rw [htext] at h
    exact nomatch h

end PatchReview.Json
