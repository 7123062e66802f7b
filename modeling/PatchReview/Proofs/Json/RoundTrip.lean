import PatchReview.Proofs.Json.Literal
import PatchReview.Proofs.Json.Numeral

/-!
# A written value is read back

Reading the text of a written value gives the value, in either form of the text (`read_text`). Values,
items and members are read by one mutual recursion on fuel, so what is read back is said of all three
at once (`ReadsBack`): one lemma for each takes it from one unit of fuel to the next, and an induction on
the fuel gives it for all. The text of a value is as long as the fuel that reading it takes.
-/

namespace PatchReview.Json

/-! ## Where a value begins and ends -/

/-- Whether a text goes on with what stands after a value: a comma, the end of an array or of an object,
    or nothing. -/
def Ends (rest : List Char) : Prop := ∀ c ∈ rest.head?, c = ',' ∨ c = ']' ∨ c = '\x7d'

theorem Ends.isBoundary {rest : List Char} (h : Ends rest) : IsBoundary rest := by
  intro c hc
  obtain rfl | rfl | rfl := h c hc <;> decide

/-- The characters with which a value begins. -/
def opens (c : Char) : Bool :=
  isDigit c || ['n', 't', 'f', 'N', 'I', '-', '\x22', '[', '\x7b'].contains c

theorem opens_of_startsNumber {cs : List Char} (h : StartsNumber cs) :
    ∃ c ds, cs = c :: ds ∧ opens c = true := by
  obtain ⟨c, ds, hcs, hdigit | rfl⟩ := h
  · exact ⟨c, ds, hcs, by rw [opens, hdigit, Bool.true_or]⟩
  · exact ⟨'-', ds, hcs, by decide⟩

theorem exists_chars_cons (ascii : Bool) (w : Written) :
    ∃ c cs, w.chars ascii = c :: cs ∧ opens c = true := by
  cases w with
  | null => exact ⟨_, _, rfl, by decide⟩
  | bool b => cases b <;> exact ⟨_, _, rfl, by decide⟩
  | integer n => exact opens_of_startsNumber (startsNumber_integerChars n)
  | real n => exact opens_of_startsNumber (startsNumber_numeral n)
  | notANumber => exact ⟨_, _, rfl, by decide⟩
  | infinite negative => cases negative <;> exact ⟨_, _, rfl, by decide⟩
  | string s => exact ⟨_, _, rfl, by decide⟩
  | array items => cases items <;> exact ⟨_, _, rfl, by decide⟩
  | object members => rcases members with _ | ⟨⟨name, w⟩, members⟩ <;> exact ⟨_, _, rfl, by decide⟩

/-- No blank and no closing bracket stands before a value. -/
theorem skipBlanks_chars (ascii : Bool) (w : Written) (rest : List Char) :
    skipBlanks (w.chars ascii ++ rest) = w.chars ascii ++ rest
      ∧ ∀ more, w.chars ascii ++ rest ≠ ']' :: more := by
  obtain ⟨c, cs, hcs, hc⟩ := exists_chars_cons ascii w
  have hne : ∀ d, opens d = false → c ≠ d := by
    rintro d hd rfl
    exact Bool.noConfusion (hc.symm.trans hd)
  rw [hcs, List.cons_append]
  refine ⟨?_, fun more heq => hne ']' (by decide) (List.cons.inj heq).1⟩
  rw [skipBlanks, if_neg]
  rintro (h | h | h | h)
  · exact hne ' ' (by decide) h
  · exact hne '\t' (by decide) h
  · exact hne '\n' (by decide) h
  · exact hne '\r' (by decide) h

theorem ends_charsAfterItem (ascii : Bool) (items : List Written) (rest : List Char) :
    Ends (Written.charsAfterItem ascii items ++ rest) := by
  cases items with
  | nil => rintro c ⟨⟩; exact .inr (.inl rfl)
  | cons w items => rintro c ⟨⟩; exact .inl rfl

theorem ends_charsAfterMember (ascii : Bool) (members : List (Literal × Written)) (rest : List Char) :
    Ends (Written.charsAfterMember ascii members ++ rest) := by
  cases members with
  | nil => rintro c ⟨⟩; exact .inr (.inr rfl)
  | cons m members => rintro c ⟨⟩; exact .inl rfl

/-! ## One unit of fuel -/

/-- Whether with some fuel all is read back that is not longer than the fuel. -/
structure ReadsBack (ascii : Bool) (fuel : Nat) : Prop where
  value : ∀ (w : Written) (rest : List Char), Ends rest → (w.chars ascii).length ≤ fuel →
    readValue fuel (w.chars ascii ++ rest) = some (w.value, rest)
  items : ∀ (w : Written) (items : List Written) (done : List Json) (rest : List Char),
    (w.chars ascii).length + (Written.charsAfterItem ascii items).length ≤ fuel →
    readItems fuel done (w.chars ascii ++ (Written.charsAfterItem ascii items ++ rest))
      = some (array (done.reverse ++ Written.values (w :: items)), rest)
  members : ∀ (name : Literal) (w : Written) (members : List (Literal × Written))
    (done : List (String × Json)) (rest : List Char),
    (w.chars ascii).length + (Written.charsAfterMember ascii members).length ≤ fuel →
    readMembers fuel done (name.chars ascii
        ++ ':' :: ' ' :: (w.chars ascii ++ (Written.charsAfterMember ascii members ++ rest)))
      = some (object (done.reverse ++ Written.namedValues ((name, w) :: members)), rest)

variable {ascii : Bool} {fuel : Nat}

theorem length_chars_pos (ascii : Bool) (w : Written) : 0 < (w.chars ascii).length := by
  obtain ⟨c, cs, hcs, -⟩ := exists_chars_cons ascii w
  rw [hcs]
  exact Nat.zero_lt_succ _

theorem readsBack_zero : ReadsBack ascii 0 where
  value w rest _ hfuel := absurd hfuel (Nat.not_le_of_lt (length_chars_pos ascii w))
  items w _ _ _ hfuel := absurd (length_chars_pos ascii w) (by omega)
  members _ w _ _ _ hfuel := absurd (length_chars_pos ascii w) (by omega)

theorem readValue_number {cs : List Char} (h : StartsNumber cs) (rest : List Char) :
    readValue (fuel + 1) (cs ++ rest) = readScalar (cs ++ rest) := by
  obtain ⟨c, ds, rfl, hc⟩ := h
  have hne : ∀ d more, (isDigit d = false ∧ d ≠ '-') → c :: ds ++ rest ≠ d :: more := by
    rintro d more ⟨hdigit, hsign⟩ heq
    obtain rfl : c = d := (List.cons.inj heq).1
    obtain hc | hc := hc
    · exact Bool.noConfusion (hc.symm.trans hdigit)
    · exact hsign hc
  rw [readValue]
  · exact fun more => hne '\x22' more (by decide)
  · exact fun more => hne '[' more (by decide)
  · exact fun more => hne '\x7b' more (by decide)

theorem readValue_literal (s : Literal) (rest : List Char) :
    readValue (fuel + 1) (s.chars ascii ++ rest) = some (ofLiteral s, rest) := by
  rw [Literal.chars, List.cons_append, readValue, readString_literal]
  rfl

theorem ReadsBack.value_succ (h : ReadsBack ascii fuel) (w : Written) {rest : List Char} (hrest : Ends rest)
    (hfuel : (w.chars ascii).length ≤ fuel + 1) :
    readValue (fuel + 1) (w.chars ascii ++ rest) = some (w.value, rest) := by
  cases w with
  | null => rfl
  | bool b => cases b <;> rfl
  | integer n =>
      exact (readValue_number (startsNumber_integerChars n) rest).trans
        (readScalar_integerChars n hrest.isBoundary)
  | real n =>
      exact (readValue_number (startsNumber_numeral n) rest).trans (readScalar_numeral n hrest.isBoundary)
  | notANumber => rfl
  | infinite negative => cases negative <;> rfl
  | string s => exact readValue_literal s rest
  | array items =>
      cases items with
      | nil => rfl
      | cons w items =>
          obtain ⟨hskip, hne⟩ := skipBlanks_chars ascii w (Written.charsAfterItem ascii items ++ rest)
          rw [Written.chars, List.length_cons, List.length_append] at hfuel
          have hitems := h.items w items [] rest (by omega)
          rw [Written.chars, List.cons_append, List.append_assoc, readValue, hskip]
          split
          · rename_i more heq
            exact absurd heq (hne more)
          · exact hitems
  | object members =>
      rcases members with _ | ⟨⟨name, w⟩, members⟩
      · rfl
      · simp only [Written.chars, List.length_cons, List.length_append] at hfuel
        have hmembers := h.members name w members [] rest (by omega)
        simp only [Written.chars, List.cons_append, List.append_assoc]
        exact hmembers

theorem ReadsBack.items_succ (h : ReadsBack ascii fuel) (w : Written) (items : List Written)
    (done : List Json) (rest : List Char)
    (hfuel : (w.chars ascii).length + (Written.charsAfterItem ascii items).length ≤ fuel + 1) :
    readItems (fuel + 1) done (w.chars ascii ++ (Written.charsAfterItem ascii items ++ rest))
      = some (array (done.reverse ++ Written.values (w :: items)), rest) := by
  have hpos := length_chars_pos ascii w
  cases items with
  | nil =>
      rw [Written.charsAfterItem, List.length_singleton] at hfuel
      have hvalue := h.value w _ (ends_charsAfterItem ascii [] rest) (by omega)
      rw [readItems, hvalue, Written.values, Written.values, ← List.reverse_cons]
      rfl
  | cons next items =>
      simp only [Written.charsAfterItem, List.length_cons, List.length_append] at hfuel
      have hvalue := h.value w _ (ends_charsAfterItem ascii (next :: items) rest) (by omega)
      have hitems := h.items next items (w.value :: done) rest (by omega)
      obtain ⟨hskip, -⟩ := skipBlanks_chars ascii next (Written.charsAfterItem ascii items ++ rest)
      rw [readItems, hvalue, Written.charsAfterItem, List.cons_append, List.cons_append, List.append_assoc]
      show readItems fuel (w.value :: done) (skipBlanks (next.chars ascii ++ _)) = _
      rw [hskip, hitems, List.reverse_cons, List.append_assoc]
      rfl

theorem ReadsBack.members_succ (h : ReadsBack ascii fuel) (name : Literal) (w : Written)
    (members : List (Literal × Written)) (done : List (String × Json)) (rest : List Char)
    (hfuel : (w.chars ascii).length + (Written.charsAfterMember ascii members).length ≤ fuel + 1) :
    readMembers (fuel + 1) done (name.chars ascii
        ++ ':' :: ' ' :: (w.chars ascii ++ (Written.charsAfterMember ascii members ++ rest)))
      = some (object (done.reverse ++ Written.namedValues ((name, w) :: members)), rest) := by
  have hpos := length_chars_pos ascii w
  have hname := readString_literal ascii name
  have hcolon : ∀ cs, skipBlanks (':' :: cs) = ':' :: cs := fun _ => rfl
  have hblank : ∀ cs, skipBlanks (' ' :: cs) = skipBlanks cs := fun _ => rfl
  obtain ⟨hskip, -⟩ := skipBlanks_chars ascii w (Written.charsAfterMember ascii members ++ rest)
  cases members with
  | nil =>
      rw [Written.charsAfterMember, List.length_singleton] at hfuel
      have hvalue := h.value w _ (ends_charsAfterMember ascii [] rest) (by omega)
      simp only [Literal.chars, List.cons_append, readMembers, hname, hcolon, hblank, hskip, hvalue]
      rw [Written.charsAfterMember, Written.namedValues]
      cases name.text? with
      | none => simp [skipBlanks, Written.namedValues]
      | some k => simp [skipBlanks, Written.namedValues]
  | cons next members =>
      obtain ⟨following, v⟩ := next
      simp only [Written.charsAfterMember, List.length_cons, List.length_append] at hfuel
      have hvalue := h.value w _ (ends_charsAfterMember ascii ((following, v) :: members) rest) (by omega)
      simp only [Literal.chars, List.cons_append, readMembers, hname, hcolon, hblank, hskip, hvalue]
      rw [Written.charsAfterMember, Written.namedValues]
      simp only [List.cons_append, List.append_assoc]
      cases name.text? with
      | none => exact h.members following v members done rest (by omega)
      | some k =>
          have hmembers := h.members following v members ((k, w.value) :: done) rest (by omega)
          rw [List.reverse_cons, List.append_assoc] at hmembers
          exact hmembers

theorem readsBack (ascii : Bool) (fuel : Nat) : ReadsBack ascii fuel := by
  induction fuel with
  | zero => exact readsBack_zero
  | succ fuel ih => exact ⟨fun w _ => ih.value_succ w, ih.items_succ, ih.members_succ⟩

/-- The text of a written value is read as the value. -/
theorem read_text (ascii : Bool) (w : Written) : read (w.text ascii) = some w.value := by
  have hvalue := (readsBack ascii (2 * (w.chars ascii).length + 2)).value w [] (by rintro c ⟨⟩) (by omega)
  obtain ⟨hskip, -⟩ := skipBlanks_chars ascii w []
  rw [List.append_nil] at hvalue hskip
  rw [read, Written.text, String.toList_ofList]
  simp only [hskip, hvalue]
  rfl

/-- Both forms of a text, with a control, a character of sixteen bits, one of more, and half of a pair. -/
example :
    let w : Written := .array [.integer (-12), .string ⟨[.char '\n', .char 'é', .char '𝄞', .high 61], rfl⟩]
    w.text true = "[-12, \"\\n\\u00e9\\ud834\\udd1e\\ud83d\"]"
      ∧ w.text false = "[-12, \"\\né𝄞\\ud83d\"]" := by
  decide +kernel

end PatchReview.Json
