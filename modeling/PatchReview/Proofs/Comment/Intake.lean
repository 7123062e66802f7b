import PatchReview.Comment.Reading
import PatchReview.Proofs.Json.RoundTrip
import PatchReview.Proofs.Record

/-!
# Comments arrive as they were sent

A comment that is sent is an object of its six fields (`CommentOf.members`), and the reader of comments
gives just that comment back, in whatever order the fields stand (`CommentOf.comment_of_perm`), be its
remarks texts or not. Values that are no comments may stand between the comments that are sent
(`Interleaved`); they are passed over one by one, so they hide nothing and change no order
(`ofValues_interleaved`). The text of the list is read back as the list (`Json.read_text`), hence the
comments of the text are those that were sent.
-/

namespace PatchReview

namespace Json

/-- A member is found by its name wherever it stands, if no name is used twice. -/
theorem member?_of_perm {members fields : List (String × Json)} (h : members.Perm fields)
    (hnames : (fields.map (·.1)).Nodup) {name : String} {v : Json} (hmem : (name, v) ∈ fields) :
    (object members).member? name = some v := by
  have hreverse : members.reverse.Perm fields := (List.reverse_perm members).trans h
  obtain ⟨before, after, hsplit⟩ := List.append_of_mem (hreverse.mem_iff.2 hmem)
  have hdistinct : (members.reverse.map (·.1)).Nodup := (hreverse.map (·.1)).nodup_iff.2 hnames
  rw [hsplit, List.map_append, List.map_cons, List.nodup_append] at hdistinct
  refine List.lookup_eq_some_iff.2 ⟨before, after, hsplit, fun p hp => ?_⟩
  have hne := hdistinct.2.2 p.1 (List.mem_map_of_mem hp) name List.mem_cons_self
  simpa using hne.symm

end Json

theorem Severity.ofName?_name (s : Severity) : ofName? s.name = some s := by
  cases s <;> decide

/-! ## One comment -/

namespace CommentOf

variable (c : CommentOf Json.Literal)

/-- The members of the object that a comment is sent as. -/
def members : List (String × Json) :=
  [("file", .string c.file), ("line", .integer c.line), ("severity", .string c.severity.name),
    ("smell", .ofLiteral c.smell), ("rationale", .ofLiteral c.rationale),
    ("suggestion", .ofLiteral c.suggestion)]

/-- The object that a comment is sent as. -/
def written : Json.Written :=
  .object [(.ofString "file", .string (.ofString c.file)), (.ofString "line", .integer c.line),
    (.ofString "severity", .string (.ofString c.severity.name)), (.ofString "smell", .string c.smell),
    (.ofString "rationale", .string c.rationale), (.ofString "suggestion", .string c.suggestion)]

theorem value_written : c.written.value = .object c.members := by
  simp only [written, Json.Written.value, Json.Written.namedValues, Json.text?_ofString,
    Json.ofLiteral_ofString, members]

/-- Whether a comment has a file and a line in it, counted from one. -/
def IsPlaced : Prop := c.file ≠ "" ∧ 1 ≤ c.line

instance : Decidable c.IsPlaced := inferInstanceAs (Decidable (_ ∧ _))

variable {c}

/-- An object of the fields of a comment is read as the comment. -/
theorem comment_of_perm (hc : c.IsPlaced) {ms : List (String × Json)} (h : ms.Perm c.members) :
    Record.comment Record.string (.object ms) = .ok c := by
  have hnames : (c.members.map (·.1)).Nodup := by
    show ["file", "line", "severity", "smell", "rationale", "suggestion"].Nodup
    decide
  have hmember : ∀ name v, (name, v) ∈ c.members → (Json.object ms).member? name = some v :=
    fun name v => Json.member?_of_perm h hnames
  have hfile : Record.nonEmptyText (.string c.file) = .ok c.file := if_neg (by simpa using hc.1)
  have hline : Record.integerAbove 0 (.integer c.line) = .ok c.line := if_pos hc.2
  have hseverity : Record.listed Severity.ofName? (.string c.severity.name) = .ok c.severity := by
    rw [Record.listed, Severity.ofName?_name]
  simp only [Record.comment, Record.record, Record.required,
    hmember "file" (.string c.file) (by simp [members]),
    hmember "line" (.integer c.line) (by simp [members]),
    hmember "severity" (.string c.severity.name) (by simp [members]),
    hmember "smell" (.ofLiteral c.smell) (by simp [members]),
    hmember "rationale" (.ofLiteral c.rationale) (by simp [members]),
    hmember "suggestion" (.ofLiteral c.suggestion) (by simp [members]), hfile, hline, hseverity,
    Record.string_ofLiteral]
  rfl

/-- A comment that is read is placed. -/
theorem isPlaced_of_comment {j : Json} (h : Record.comment Record.string j = .ok c) : c.IsPlaced := by
  obtain ⟨k, hfields⟩ := Record.exists_of_record h
  obtain ⟨_, _, h₅, -, rfl⟩ := Record.Checked.seq_eq_ok_iff.1 hfields
  obtain ⟨_, _, h₄, -, rfl⟩ := Record.Checked.seq_eq_ok_iff.1 h₅
  obtain ⟨_, _, h₃, -, rfl⟩ := Record.Checked.seq_eq_ok_iff.1 h₄
  obtain ⟨_, _, h₂, -, rfl⟩ := Record.Checked.seq_eq_ok_iff.1 h₃
  obtain ⟨_, line, h₁, hline, rfl⟩ := Record.Checked.seq_eq_ok_iff.1 h₂
  obtain ⟨file, hfile, rfl⟩ := Record.Checked.map_eq_ok_iff.1 h₁
  exact ⟨Record.of_required (P := fun file => file ≠ "") hfile fun _ _ => Record.ne_empty_of_nonEmptyText,
    Record.of_required (P := fun line => 1 ≤ line) hline fun _ _ => Record.lt_of_integerAbove⟩

end CommentOf

namespace Comment

/-! ## Many values -/

/-- Values among which the comments stand in order, the others being no comments. -/
inductive Interleaved : List (CommentOf Json.Literal) → List Json → Prop where
  | nil : Interleaved [] []
  | comment {c : CommentOf Json.Literal} {cs : List (CommentOf Json.Literal)} {ms : List (String × Json)}
      {vs : List Json} (hms : ms.Perm c.members) (h : Interleaved cs vs) :
      Interleaved (c :: cs) (.object ms :: vs)
  | other {v : Json} {cs : List (CommentOf Json.Literal)} {vs : List Json}
      (hv : (Record.comment Record.string v).value? = none) (h : Interleaved cs vs) :
      Interleaved cs (v :: vs)

theorem ofValues_cons (v : Json) (vs : List Json) :
    ofValues (v :: vs) = (Record.comment Record.string v).value?.toList ++ ofValues vs := by
  rw [ofValues, List.filterMap_cons]
  cases (Record.comment Record.string v).value? <;> rfl

/-- The comments among the values are those that stand among them. -/
theorem ofValues_interleaved {cs : List (CommentOf Json.Literal)} {vs : List Json} (h : Interleaved cs vs)
    (hcs : ∀ c ∈ cs, c.IsPlaced) : ofValues vs = cs := by
  induction h with
  | nil => rfl
  | @comment c cs ms vs hms h ih =>
      have hread := CommentOf.comment_of_perm (hcs c List.mem_cons_self) hms
      have hrest := ih fun d hd => hcs d (List.mem_cons_of_mem c hd)
      rw [ofValues_cons, hread, hrest]
      rfl
  | other hv h ih =>
      rw [ofValues_cons, hv, ih hcs]
      rfl

theorem offered_of_member {j : Json} {vs : List Json} (h : j.member? "comments" = some (.array vs)) :
    offered j = vs := by
  cases j with
  | object ms => simp [offered, h]
  | _ => exact nomatch h

/-! ## Texts -/

theorem isPlaced_of_mem_ofValues {vs : List Json} {c : CommentOf Json.Literal} (h : c ∈ ofValues vs) :
    c.IsPlaced := by
  obtain ⟨v, -, hv⟩ := List.mem_filterMap.1 h
  cases hread : Record.comment Record.string v with
  | ok d =>
      rw [hread] at hv
      obtain rfl := Option.some.inj hv
      exact CommentOf.isPlaced_of_comment hread
  | bad issues =>
      rw [hread] at hv
      exact nomatch hv

theorem isPlaced_of_mem_ofText {text : String} {c : CommentOf Json.Literal} (h : c ∈ ofText text) :
    c.IsPlaced := by
  rw [ofText] at h
  cases hread : Json.read text with
  | some j =>
      rw [hread] at h
      exact isPlaced_of_mem_ofValues h
  | none =>
      rw [hread] at h
      exact nomatch h

theorem ofText_text (ascii : Bool) {w : Json.Written} {vs : List Json}
    (hw : w.value = .array vs ∨ w.value.member? "comments" = some (.array vs)) :
    ofText (w.text ascii) = ofValues vs := by
  have hoffered : offered w.value = vs := by
    obtain harray | hmember := hw
    · rw [harray, offered]
    · exact offered_of_member hmember
  rw [ofText, Json.read_text]
  exact congrArg ofValues hoffered

/-- Comments arrive as they were sent. Let a list of values hold the objects of some comments in their
    order, and between them whatever is no comment. From the text of the list, or of an object that has
    it as its comments, in either form, just those comments are read; and from no text at all is a
    comment read that has no file or no line. -/
theorem ofText_interleaved :
    (∀ (cs : List (CommentOf Json.Literal)) (vs : List Json) (w : Json.Written) (ascii : Bool),
      (∀ c ∈ cs, c.file ≠ "" ∧ 1 ≤ c.line) → Interleaved cs vs →
      (w.value = .array vs ∨ w.value.member? "comments" = some (.array vs)) →
      ofText (w.text ascii) = cs)
    ∧ ∀ (text : String), ∀ c ∈ ofText text, c.file ≠ "" ∧ 1 ≤ c.line := by
  refine ⟨fun cs vs w ascii hcs hvs hw => ?_, fun text c hc => isPlaced_of_mem_ofText hc⟩
  rw [ofText_text ascii hw, ofValues_interleaved hvs hcs]

/-- A string that ends in half of a pair. -/
def halved : Json.Literal := ⟨[.char 'x', .high ⟨61, by decide⟩], rfl⟩

/-- A comment with a quote, a backslash, a control, characters outside ASCII, and half of a pair. -/
def quoting : CommentOf Json.Literal :=
  ⟨"a \"b\"/é.py", 3, .minor, halved, .ofString "not\ta\u007F word", .ofString "use 𝄞 \\ 𝄢"⟩

/-- A comment of plain words. -/
def plain : CommentOf Json.Literal :=
  ⟨"m.py", 12, .critical, .ofString "injection", .ofString "reads it raw", .ofString "quote it"⟩

/-- Two comments among half of a pair, a list of values, and an object whose line is none. -/
def mail : Json.Written :=
  .array [.string halved, quoting.written,
    .array [.null, .real ⟨true, 1, [5], some (true, [0, 7]), by simp, by simp⟩, .object []],
    .object [(.ofString "file", .string (.ofString "m.py")), (⟨[.low ⟨9, by decide⟩], rfl⟩, .bool true),
      (.ofString "line", .string (.ofString "\x1c1"))],
    plain.written]

/-- The values of the mail. -/
def received : List Json :=
  [.ofLiteral halved, .object quoting.members,
    .array [.null, .real (.ofDecimal true 15 (-8)), .object []],
    .object [("file", .string "m.py"), ("line", .string "\x1c1")], .object plain.members]

theorem value_mail : mail.value = .array received := by
  simp only [mail, Json.Written.value, Json.Written.values, CommentOf.value_written, received,
    Json.Written.namedValues, Json.text?_ofString, Json.ofLiteral_ofString]
  rfl

theorem interleaved_received : Interleaved [quoting, plain] received :=
  .other rfl (.comment (.refl _) (.other rfl (.other rfl (.comment (.refl _) .nil))))

/-- The two comments are read from the mail in one form, and from an object that has it in the other. -/
theorem ofText_mail : (∀ c ∈ [quoting, plain], c.file ≠ "" ∧ 1 ≤ c.line)
    ∧ Interleaved [quoting, plain] received ∧ mail.value = .array received
    ∧ ofText (mail.text true) = [quoting, plain]
    ∧ ofText ((Json.Written.object [(.ofString "comments", mail)]).text false) = [quoting, plain] := by
  have hplaced : ∀ c ∈ [quoting, plain], c.file ≠ "" ∧ 1 ≤ c.line := by decide
  have hmember : (Json.Written.object [(.ofString "comments", mail)]).value.member? "comments"
      = some (.array received) := by
    simp only [Json.Written.value, Json.Written.namedValues, Json.text?_ofString, value_mail]
    rfl
  exact ⟨hplaced, interleaved_received, value_mail,
    ofText_interleaved.1 _ _ _ true hplaced interleaved_received (.inl value_mail),
    ofText_interleaved.1 _ _ _ false hplaced interleaved_received (.inr hmember)⟩

end Comment

end PatchReview
