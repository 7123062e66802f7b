import Mathlib
import PatchReview.Proofs.Diff.Seam

/-!
# The entries of a diff

A diff is read entry by entry. `entries` lists all of them, those without a usable path too; where the
diff is refused there are none to list. The files of a diff are what its entries describe, and its lines
are counted as they are read, whether or not the entry that they stand in is left out in the end
(`exists_entries`).

`lineStep` says once what a line can do: it is read as a line of the open body, it closes the open entry
and opens another, or it says something of the entry that stays open. The hunks of an entry are bodies
that were read, so what every line keeps of a body holds of every hunk (`exists_body_of_mem_entries`).
-/

namespace PatchReview.Diff

open PatchReview.Text

/-! ## Entries that are closed -/

namespace Progress

/-- Whether a line is read as one of the open body. -/
def reads (s : Progress) (line : List Char) (following : Option (List Char)) : Bool :=
  s.inBody && !opensEntry line following && (s.body.bind fun b => readBody b line s).isSome

/-- Whether a line closes the open entry: a `diff --git` line does, and so does a line `--- ` where the
    entry has a hunk. -/
def closes (s : Progress) (line : List Char) (following : Option (List Char)) : Bool :=
  !s.reads line following && (begins "diff --git " line || (begins "--- " line && s.isReady))

/-- The open entry with all its hunks, if there is one. -/
def unfinished (s : Progress) : List Entry := s.settle.entry.toList

end Progress

/-- The entries that lines close one after another, and the one that is open at the end. -/
def entriesFrom (s : Progress) : List (List Char) → Except Overlong (List Entry)
  | [] => .ok s.unfinished
  | line :: rest => do
    let closed := if s.closes line rest.head? then s.unfinished else []
    return closed ++ (← entriesFrom (← readLine s line rest.head?) rest)

/-- The entries of a diff, with or without a usable path. -/
def entries (text : String) : Except Overlong (List Entry) := entriesFrom {} (lines text.toList)

/-- The number of lines that an entry adds. -/
def Entry.addedCount (e : Entry) : Nat := (e.hunks.map (·.added.length)).sum

/-- The number of lines that entries add. -/
def addedIn (es : List Entry) : Nat := (es.map Entry.addedCount).sum

@[simp] theorem addedIn_nil : addedIn [] = 0 := rfl

@[simp] theorem addedIn_append (es fs : List Entry) :
    addedIn (es ++ fs) = addedIn es + addedIn fs := by simp [addedIn]

namespace Progress

variable (s : Progress)

@[simp] theorem done_settle : s.settle.done = s.done := by
  rw [settle]
  cases hb : s.body <;> rfl

@[simp] theorem added_settle : s.settle.added = s.added := by
  rw [settle]
  cases hb : s.body <;> rfl

@[simp] theorem settle_settle : s.settle.settle = s.settle := by
  rw [settle.eq_def s.settle, body_settle]

theorem done_close : s.close.done = s.done ++ s.unfinished.filterMap Entry.change := by
  rw [close, unfinished]
  cases he : s.settle.entry with
  | none => simp
  | some e => cases hc : e.change <;> simp [hc]

/-- An entry with an open body has that body for its last hunk. -/
theorem unfinished_of_body {e : Entry} {b : Body} (he : s.entry = some e) (hb : s.body = some b) :
    s.unfinished = [{ e with hunks := e.hunks ++ [b.hunk] }] := by
  rw [unfinished, settle]
  simp [he, hb]

theorem unfinished_of_no_body (hb : s.body = none) : s.unfinished = s.entry.toList := by
  rw [unfinished, settle]
  simp [hb]

@[simp] theorem unfinished_settle : s.settle.unfinished = s.unfinished := by
  rw [unfinished, unfinished, settle_settle]

@[simp] theorem unfinished_giveUp : s.giveUp.unfinished = s.unfinished := by
  rw [unfinished, unfinished, settle, settle, giveUp]
  cases hb : s.body <;> rfl

end Progress

/-! ## What one line can do -/

/-- The body that a hunk header opens. -/
def Promise.body (promise : Promise) : Body :=
  ⟨⟨promise.newStart, promise.newStart, []⟩, promise.newStart, promise.oldCount, promise.newCount⟩

/-- What a line can make of an open body, with the number of lines that it adds. -/
inductive BodyStep (b : Body) (line : List Char) : Body → Nat → Prop where
  | mark : BodyStep b line b 0
  | added (content : List Char) (h : line = '+' :: content) : BodyStep b line (b.addLine content) 1
  | removed : BodyStep b line { b with oldLeft := b.oldLeft - 1 } 0
  | kept : BodyStep b line b.keepLine 0

/-- What a header line can make of the progress where it closes no entry. -/
inductive ProceedStep (s : Progress) : Progress → Prop where
  | begun (path : String) (h : s.entry = none) :
      ProceedStep s { s with entry := some { newPath := some path } }
  | amended (change : Entry → Entry) (h : ∀ e, (change e).hunks = e.hunks) :
      ProceedStep s (s.amend change)
  | started (promise : Promise) (h : s.entry.isSome = true) :
      ProceedStep s { s.settle with body := some promise.body }
  | settled : ProceedStep s s.settle
  | remark : ProceedStep s s

/-- What a line can make of the progress; `closing` says whether it closes the open entry. -/
inductive LineStep (s : Progress) (line : List Char) : (closing : Bool) → Progress → Prop where
  | body {b b' : Body} {n : Nat} (deleted : Nat) (hb : s.body = some b)
      (h : BodyStep b line b' n) :
      LineStep s line false { s with body := some b', added := s.added + n, deleted := deleted }
  | closed (e : Entry) (h : e.hunks = []) : LineStep s line true (s.reopen e)
  | proceeded {s₁ s' : Progress} (hs : s₁ = s ∨ s₁ = s.giveUp) (h : ProceedStep s₁ s') :
      LineStep s line false s'

/-- What is read as a line of the open body does one of the things that such a line can do. -/
theorem bodyStep {b : Body} {line : List Char} {s s' : Progress} (hb : s.body = some b)
    (h : readBody b line s = some s') : LineStep s line false s' := by
  have hmark : LineStep s line false { s with body := some b, added := s.added + 0 } :=
    .body s.deleted hb .mark
  rw [Nat.add_zero, ← hb] at hmark
  unfold readBody at h
  split at h
  · obtain rfl := Option.some.inj h
    exact hmark
  · obtain rfl := Option.some.inj h
    exact .body s.deleted hb (.added _ rfl)
  · obtain rfl := Option.some.inj h
    exact .body (s.deleted + 1) hb .removed
  · obtain rfl := Option.some.inj h
    exact .body s.deleted hb .kept
  · obtain rfl := Option.some.inj h
    exact .body s.deleted hb .kept
  · cases h

/-- A line that does not begin so leaves nothing. -/
theorem afterPrefix?_eq_none {beginning : String} {line : List Char}
    (h : begins beginning line = false) : afterPrefix? beginning line = none := by
  rw [begins] at h
  rw [afterPrefix?]
  simp [h]

/-- A hunk header that is not refused starts a hunk in the open entry, or ends the last one. -/
theorem proceedStep_promised {ranges? : Option Ranges} {s s' : Progress}
    (h : s.promised ranges? = .ok s') : ProceedStep s s' := by
  cases ranges? with
  | none =>
      obtain rfl := Except.ok.inj h
      exact .settled
  | some ranges =>
      rw [Progress.promised] at h
      by_cases hsome : s.entry.isSome = true
      · rw [if_pos hsome] at h
        cases hpromise : ranges.promise with
        | error e =>
            rw [hpromise] at h
            cases h
        | ok promise =>
            rw [hpromise] at h
            obtain rfl := Except.ok.inj h
            exact .started promise hsome
      · rw [if_neg hsome] at h
        obtain rfl := Except.ok.inj h
        exact .settled

/-- A header line that opens no entry says something of the open one, or starts a hunk in it. -/
theorem proceedStep {line : List Char} {s s' : Progress} (h : readHeader line s = .ok s')
    (hgit : begins "diff --git " line = false) (hold : (begins "--- " line && s.isReady) = false) :
    ProceedStep s s' := by
  have hnew : ∀ path, ProceedStep s (s.nameNew path) := by
    intro path
    rw [Progress.nameNew]
    by_cases hnone : s.entry = none
    · rw [if_pos (by simp [hnone])]
      exact .begun path hnone
    · rw [if_neg (by simp [hnone])]
      exact .amended _ fun e => rfl
  by_cases hside : begins "--- " line = true
  · have hopen : ¬(s.entry.isNone || s.hasHunk) = true := by
      rw [hside, Bool.true_and] at hold
      exact Bool.eq_false_iff.1 hold
    rw [readHeader_oldSide hside, Progress.nameOld, if_neg hopen] at h
    obtain rfl := Except.ok.inj h
    exact .amended _ fun e => rfl
  rw [Bool.not_eq_true] at hside
  unfold readHeader at h
  simp only [afterPrefix?_eq_none hgit, afterPrefix?_eq_none hside] at h
  cases hplus : afterPrefix? "+++ " line with
  | some rest =>
      rw [hplus] at h
      obtain rfl := Except.ok.inj h
      exact hnew (headerPath rest)
  | none =>
  by_cases hcreated : begins "new file mode" line = true
  · simp only [hplus, hcreated, if_true] at h
    obtain rfl := Except.ok.inj h
    exact .amended _ fun e => rfl
  by_cases hdeleted : begins "deleted file mode" line = true
  · simp only [hplus, hcreated, hdeleted, if_true] at h
    obtain rfl := Except.ok.inj h
    exact .amended _ fun e => rfl
  cases hfrom : afterPrefix? "rename from " line with
  | some rest =>
      simp only [hplus, hcreated, hdeleted, hfrom] at h
      obtain rfl := Except.ok.inj h
      exact .amended _ fun e => rfl
  | none =>
  cases hto : afterPrefix? "rename to " line with
  | some rest =>
      simp only [hplus, hcreated, hdeleted, hfrom, hto] at h
      obtain rfl := Except.ok.inj h
      exact .amended _ fun e => rfl
  | none =>
  simp only [hplus, hcreated, hdeleted, hfrom, hto] at h
  by_cases hat : begins "@@" line = true
  · simp only [hat, if_true] at h
    have hpromised : s.promised (readRanges line) = .ok s' := by
      cases hranges : readRanges line with
      | some ranges =>
          rw [hranges] at h
          exact h
      | none =>
          rw [hranges] at h
          exact h
    exact proceedStep_promised hpromised
  · simp only [hat] at h
    obtain rfl := Except.ok.inj h
    exact .remark

/-- Where a line is not read as one of the open body it is a header line; what was promised may have
    been given up. -/
theorem readLine_of_not_reads {s : Progress} {line : List Char} {following : Option (List Char)}
    (h : s.reads line following = false) :
    ∃ s₁, (s₁ = s ∨ s₁ = s.giveUp) ∧ readLine s line following = readHeader line s₁ := by
  by_cases hin : s.inBody = true
  · by_cases hopen : opensEntry line following = true
    · exact ⟨s.giveUp, .inr rfl, readLine_of_opensEntry hin hopen⟩
    · obtain ⟨b, hb, ho⟩ := Progress.exists_of_inBody hin
      rw [Bool.not_eq_true] at hopen
      have hnone : readBody b line s = none := by
        simpa [Progress.reads, hin, hopen, hb] using h
      refine ⟨s.giveUp, .inr rfl, ?_⟩
      rw [readLine_of_body hb ho hopen, hnone, Option.map_none, Option.getD_none]
  · exact ⟨s, .inl rfl, readLine_of_not_inBody (Bool.not_eq_true _ ▸ hin) line following⟩

/-- **Every line that is not refused does one of the things that a line can do.** -/
theorem lineStep {s s' : Progress} {line : List Char} {following : Option (List Char)}
    (h : readLine s line following = .ok s') : LineStep s line (s.closes line following) s' := by
  rw [Progress.closes]
  by_cases hreads : s.reads line following = true
  · rw [hreads]
    simp only [Progress.reads, Bool.and_eq_true, Bool.not_eq_true'] at hreads
    obtain ⟨⟨hin, hopen⟩, hsome⟩ := hreads
    obtain ⟨b, hb, ho⟩ := Progress.exists_of_inBody hin
    rw [hb, Option.bind_some] at hsome
    obtain ⟨s₁, hs₁⟩ := Option.isSome_iff_exists.1 hsome
    rw [readLine_of_body hb ho hopen, hs₁] at h
    obtain rfl := Except.ok.inj h
    exact bodyStep hb hs₁
  · rw [Bool.not_eq_true] at hreads
    obtain ⟨s₁, hs₁, hline⟩ := readLine_of_not_reads hreads
    have hready : s₁.isReady = s.isReady := by
      rcases hs₁ with rfl | rfl
      · rfl
      · exact s.isReady_giveUp
    have hreopen : ∀ e, s₁.reopen e = s.reopen e := by
      rcases hs₁ with rfl | rfl
      · exact fun e => rfl
      · exact s.reopen_giveUp
    rw [hline] at h
    rw [hreads, Bool.not_false, Bool.true_and]
    by_cases hgit : begins "diff --git " line = true
    · obtain ⟨paths?, hpaths⟩ := readHeader_gitLine hgit
      rw [hpaths, hreopen] at h
      obtain rfl := Except.ok.inj h
      rw [hgit]
      exact .closed _ rfl
    rw [Bool.not_eq_true] at hgit
    rw [hgit, Bool.false_or, ← hready]
    by_cases hold : (begins "--- " line && s₁.isReady) = true
    · rw [Bool.and_eq_true] at hold
      rw [readHeader_oldSide hold.1, Progress.nameOld_of_isReady hold.2, hreopen] at h
      obtain rfl := Except.ok.inj h
      rw [hold.1, hold.2]
      exact .closed _ rfl
    · rw [Bool.not_eq_true] at hold
      rw [hold]
      exact .proceeded hs₁ (proceedStep h hgit hold)

/-! ## Every entry is counted -/

/-- What every line keeps of bodies: a body that is opened has it, and so has one to which a line is
    added, one with a line that stays, and one of which other lines are promised. -/
structure Body.IsKept (P : Body → Prop) : Prop where
  opened   : ∀ promise : Promise, P promise.body
  addLine  : ∀ b content, isUnbroken content = true → P b → P (b.addLine content)
  keepLine : ∀ b, P b → P b.keepLine
  promised : ∀ b old new, P b → P { b with oldLeft := old, newLeft := new }

/-- Whether the open body has a property, and the hunks of the open entry are bodies with it. A body is
    open in an entry only. -/
structure Progress.Keeps (P : Body → Prop) (s : Progress) : Prop where
  attached : s.body.isSome = true → s.entry.isSome = true
  body     : ∀ b ∈ s.body, P b
  hunks    : ∀ e ∈ s.entry, ∀ h ∈ e.hunks, ∃ b, P b ∧ b.hunk = h

variable {P : Body → Prop} {s : Progress}

theorem keeps_nil : ({} : Progress).Keeps P where
  attached := by
    intro h
    cases h
  body := by
    intro b hb
    cases hb
  hunks := by
    intro e he
    cases he

theorem Progress.Keeps.giveUp (hP : Body.IsKept P) (h : s.Keeps P) : s.giveUp.Keeps P where
  attached := by
    intro hb
    exact h.attached (by simpa [Progress.giveUp] using hb)
  body := by
    intro b hb
    obtain ⟨b', hb', rfl⟩ := Option.map_eq_some_iff.1 hb
    exact hP.promised b' 0 0 (h.body b' hb')
  hunks := h.hunks

/-- The hunks of the entry that is closed are bodies with the property. -/
theorem Progress.Keeps.unfinished (h : s.Keeps P) :
    ∀ e ∈ s.unfinished, ∀ hunk ∈ e.hunks, ∃ b, P b ∧ b.hunk = hunk := by
  intro e he
  cases hb : s.body with
  | none =>
      rw [s.unfinished_of_no_body hb, Option.mem_toList] at he
      exact h.hunks e he
  | some b =>
      obtain ⟨e', he'⟩ := Option.isSome_iff_exists.1 (h.attached (by simp [hb]))
      rw [s.unfinished_of_body he' hb, List.mem_singleton] at he
      intro hunk hhunk
      rw [he, List.mem_append, List.mem_singleton] at hhunk
      rcases hhunk with hin | rfl
      · exact h.hunks e' he' hunk hin
      · exact ⟨b, h.body b hb, rfl⟩

theorem Progress.Keeps.settle (h : s.Keeps P) : s.settle.Keeps P where
  attached := by
    intro hb
    rw [s.body_settle] at hb
    cases hb
  body := by
    intro b hb
    rw [s.body_settle] at hb
    cases hb
  hunks := by
    intro e he
    exact h.unfinished e (Option.mem_toList.2 he)

theorem Progress.Keeps.proceedStep (hP : Body.IsKept P) {s' : Progress} (h : s.Keeps P)
    (hstep : ProceedStep s s') : s'.Keeps P := by
  cases hstep with
  | begun path hnone =>
      refine ⟨fun _ => rfl, h.body, ?_⟩
      rintro e ⟨⟩ hunk hhunk
      cases hhunk
  | amended change hchange =>
      refine ⟨fun hb => by simpa [Progress.amend] using h.attached hb, h.body, ?_⟩
      intro e he
      obtain ⟨e', he', rfl⟩ := Option.map_eq_some_iff.1 he
      rw [hchange]
      exact h.hunks e' he'
  | started promise hsome =>
      refine ⟨fun _ => s.isSome_entry_settle.trans hsome, ?_, h.settle.hunks⟩
      rintro b ⟨⟩
      exact hP.opened promise
  | settled => exact h.settle
  | remark => exact h

theorem Progress.Keeps.lineStep (hP : Body.IsKept P) {line : List Char}
    (hline : isUnbroken line = true) {closing : Bool} {s' : Progress} (h : s.Keeps P)
    (hstep : LineStep s line closing s') : s'.Keeps P := by
  cases hstep with
  | body deleted hb hbody =>
      rename_i b b' n
      have hold := h.body b hb
      refine ⟨fun _ => h.attached (by simp [hb]), ?_, h.hunks⟩
      rintro b'' ⟨⟩
      cases hbody with
      | mark => exact hold
      | added content hcontent =>
          refine hP.addLine b content ?_ hold
          rw [hcontent, isUnbroken_cons, Bool.and_eq_true] at hline
          exact hline.2
      | removed => exact hP.promised b (b.oldLeft - 1) b.newLeft hold
      | kept => exact hP.keepLine b hold
  | closed e he =>
      refine ⟨fun hb => rfl, ?_, ?_⟩
      · intro b hb
        have hnone : (s.reopen e).body = none := s.body_settle
        rw [hnone] at hb
        cases hb
      · rintro e' ⟨⟩ hunk hhunk
        rw [he] at hhunk
        cases hhunk
  | proceeded hs hproceed =>
      rcases hs with rfl | rfl
      · exact h.proceedStep hP hproceed
      · exact (h.giveUp hP).proceedStep hP hproceed

/-- A header line that closes no entry neither adds a line nor drops one. -/
theorem Progress.Keeps.added_proceedStep {s' : Progress} (h : s.Keeps P)
    (hstep : ProceedStep s s') :
    s'.done = s.done ∧ s'.added = s.added ∧ addedIn s'.unfinished = addedIn s.unfinished := by
  cases hstep with
  | begun path hnone =>
      have hbody : s.body = none := by
        cases hb : s.body with
        | none => rfl
        | some b => simpa [hnone] using h.attached (by simp [hb])
      have hafter : ({ s with entry := some { newPath := some path } } : Progress).unfinished
          = [{ newPath := some path }] := Progress.unfinished_of_no_body _ hbody
      refine ⟨rfl, rfl, ?_⟩
      rw [hafter, s.unfinished_of_no_body hbody, hnone]
      rfl
  | amended change hchange =>
      refine ⟨rfl, rfl, ?_⟩
      cases hb : s.body with
      | none =>
          rw [s.unfinished_of_no_body hb, (s.amend change).unfinished_of_no_body hb, Progress.amend]
          cases s.entry <;> simp [addedIn, Entry.addedCount, hchange]
      | some b =>
          obtain ⟨e, he⟩ := Option.isSome_iff_exists.1 (h.attached (by simp [hb]))
          have he' : (s.amend change).entry = some (change e) := by rw [Progress.amend, he]; rfl
          rw [s.unfinished_of_body he hb, (s.amend change).unfinished_of_body he' hb]
          simp [addedIn, Entry.addedCount, hchange]
  | started promise hsome =>
      refine ⟨s.done_settle, s.added_settle, ?_⟩
      -- the hunk that is started adds nothing yet
      obtain ⟨e, he⟩ := Option.isSome_iff_exists.1 (s.isSome_entry_settle.trans hsome)
      rw [Progress.unfinished_of_body { s.settle with body := some promise.body } he rfl,
        Progress.unfinished, he]
      simp [addedIn, Entry.addedCount, Promise.body]
  | settled => exact ⟨s.done_settle, s.added_settle, by rw [s.unfinished_settle]⟩
  | remark => exact ⟨rfl, rfl, rfl⟩

theorem added_bodyStep {b b' : Body} {line : List Char} {n : Nat} (h : BodyStep b line b' n) :
    b'.hunk.added.length = b.hunk.added.length + n := by
  cases h with
  | mark | removed | kept => rfl
  | added content hcontent => simp [Body.addLine]

/-- **A line that is counted is added to the open entry, and an entry that is closed is listed if it has
    a usable path.** -/
theorem Progress.Keeps.added_lineStep (hP : Body.IsKept P) {line : List Char} {closing : Bool}
    {s' : Progress} (h : s.Keeps P) (hstep : LineStep s line closing s') :
    s'.done = s.done ++ (if closing then s.unfinished else []).filterMap Entry.change ∧
      s'.added + addedIn s.unfinished
        = s.added + (addedIn (if closing then s.unfinished else []) + addedIn s'.unfinished) := by
  cases hstep with
  | body deleted hb hbody =>
      rename_i b b' n
      obtain ⟨e, he⟩ := Option.isSome_iff_exists.1 (h.attached (by simp [hb]))
      have hafter : ({ s with body := some b', added := s.added + n, deleted := deleted } :
          Progress).unfinished = [{ e with hunks := e.hunks ++ [b'.hunk] }] :=
        Progress.unfinished_of_body _ he rfl
      refine ⟨by simp, ?_⟩
      rw [hafter, s.unfinished_of_body he hb]
      simp [addedIn, Entry.addedCount, added_bodyStep hbody]
      omega
  | closed e he =>
      have hnone : (s.reopen e).body = none := s.body_settle
      refine ⟨s.done_close, ?_⟩
      rw [(s.reopen e).unfinished_of_no_body hnone]
      simp [Progress.reopen, Progress.close, addedIn, Entry.addedCount, he]
  | proceeded hs hproceed =>
      have hsame : s'.done = s.done ∧ s'.added = s.added ∧
          addedIn s'.unfinished = addedIn s.unfinished := by
        rcases hs with rfl | rfl
        · exact h.added_proceedStep hproceed
        · rw [← s.unfinished_giveUp]
          exact (h.giveUp hP).added_proceedStep hproceed
      obtain ⟨hdone, hadded, hunfinished⟩ := hsame
      refine ⟨by simp [hdone], ?_⟩
      simp [hadded, hunfinished]

/-! ## All lines -/

/-- The files that are listed are those of the entries, and every line that is counted stands in one of
    the entries. -/
theorem readLines_entries (hP : Body.IsKept P) {ls : List (List Char)}
    (hls : ∀ line ∈ ls, isUnbroken line = true) {s s' : Progress} (h : s.Keeps P)
    (hread : readLines s ls = .ok s') :
    ∃ es, entriesFrom s ls = .ok es ∧
      s'.close.done = s.done ++ es.filterMap Entry.change ∧
      s'.added + addedIn s.unfinished = s.added + addedIn es ∧
      ∀ e ∈ es, ∀ hunk ∈ e.hunks, ∃ b, P b ∧ b.hunk = hunk := by
  induction ls generalizing s with
  | nil =>
      obtain rfl := Except.ok.inj hread
      exact ⟨s.unfinished, rfl, s.done_close, rfl, h.unfinished⟩
  | cons line rest ih =>
      obtain ⟨hline, hrest⟩ := List.forall_mem_cons.1 hls
      rw [readLines_cons, bind_eq_ok_iff] at hread
      obtain ⟨s₁, hs₁, hread⟩ := hread
      have hstep := lineStep hs₁
      obtain ⟨hdone, hadded⟩ := h.added_lineStep hP hstep
      obtain ⟨es, hes, hdones, haddeds, hhunks⟩ := ih hrest (h.lineStep hP hline hstep) hread
      refine ⟨(if s.closes line rest.head? then s.unfinished else []) ++ es, ?_, ?_, ?_, ?_⟩
      · rw [entriesFrom, hs₁]
        show (entriesFrom s₁ rest >>= fun es => pure (_ ++ es)) = _
        rw [hes]
        rfl
      · rw [hdones, hdone, List.filterMap_append, List.append_assoc]
      · rw [addedIn_append]
        omega
      · intro e he
        rcases List.mem_append.1 he with hin | hin
        · refine h.unfinished e ?_
          split at hin
          · exact hin
          · cases hin
        · exact hhunks e hin

/-- Nothing is asked of bodies. -/
theorem isKept_true : Body.IsKept fun _ => True :=
  ⟨fun _ => trivial, fun _ _ _ _ => trivial, fun _ _ => trivial, fun _ _ _ _ => trivial⟩

/-- **A diff that is read has entries.** Its files are what they describe, in their order, the lines of
    all of them are counted, and their hunks are bodies, so what every line keeps of bodies holds of
    them. -/
theorem exists_entries (hP : Body.IsKept P) {text : String} {d : Diff} (h : read text = .ok d) :
    ∃ es, entries text = .ok es ∧ d.files = es.filterMap Entry.change ∧
      d.totals.added = addedIn es ∧ ∀ e ∈ es, ∀ hunk ∈ e.hunks, ∃ b, P b ∧ b.hunk = hunk := by
  obtain ⟨s, hs, rfl⟩ := map_eq_ok_iff.1 h
  obtain ⟨es, hes, hfiles, hadded, hhunks⟩ :=
    readLines_entries hP (fun _ => isUnbroken_of_mem_lines) keeps_nil hs
  refine ⟨es, hes, hfiles, ?_, hhunks⟩
  have hnothing : addedIn ({} : Progress).unfinished = 0 := rfl
  have htotal : s.result.totals.added = (s.added : Int) := congrArg Nat.cast (Progress.added_settle _)
  rw [hnothing, Nat.add_zero, show ({} : Progress).added = 0 from rfl, Nat.zero_add] at hadded
  rw [htotal, hadded]

end PatchReview.Diff
