import PatchReview.Proofs.Diff.Header
import PatchReview.Proofs.Diff.Printer
import PatchReview.Proofs.Diff.Seam

/-!
# Reading what was written

A patch that is written out is read as what it changes, exactly if the numbers in its hunk headers do
not have too many digits (`read_print_iff`). The header of a hunk is read as the counts that its body
has, so the body is read to its end and no further: the invariant is that what is still promised is what
is still to come (`readLines_body`). After the body nothing is promised, and the next hunk or the end
finds the hunk settled (`readLines_hunks`). Files are written one after another and each starts with a
line that opens an entry, so they are read apart.
-/

namespace PatchReview.Patch

open PatchReview.Text PatchReview.Diff

/-! ## Bodies -/

/-- The body after one of its lines. -/
def takeInBody (b : Body) (l : BodyLine) : Body :=
  match l.side with
  | .both => b.keepLine
  | .old => { b with oldLeft := b.oldLeft - 1 }
  | .new => b.addLine l.content.text.toList

/-- The progress after a line of the open body. -/
def takeLine (s : Progress) (l : BodyLine) : Progress :=
  { s with
    body := s.body.map (takeInBody · l)
    added := s.added + addedCount [l]
    deleted := s.deleted + deletedCount [l] }

/-- A signed line is a line of an open body. -/
theorem readBody_signed (l : BodyLine) {s : Progress} {b : Body} (hb : s.body = some b) :
    readBody b l.signed s = some (takeLine s l) := by
  obtain ⟨side, content, unended⟩ := l
  cases side <;> simp [readBody, BodyLine.signed, Side.sign, takeLine, takeInBody, addedCount,
    deletedCount, hb]

/-- The mark of a line without a line end changes nothing, inside a body and after it. -/
theorem readLine_unendedMark (s : Progress) (following : Option (List Char)) :
    readLine s unendedMark following = .ok s := by
  by_cases hin : s.inBody = true
  · obtain ⟨b, hb, ho⟩ := Progress.exists_of_inBody hin
    rw [readLine_of_body hb ho rfl]
    rfl
  · rw [readLine_of_not_inBody (Bool.not_eq_true _ ▸ hin)]
    rfl

/-- The lines written for a line of the open body are read as that line. -/
theorem readLines_bodyLine (l : BodyLine) {s : Progress} (hs : s.inBody = true)
    (rest : List (List Char))
    (hl : l.unended = false → opensEntry l.signed rest.head? = false) :
    readLines s (l.print ++ rest) = readLines (takeLine s l) rest := by
  obtain ⟨b, hb, ho⟩ := Progress.exists_of_inBody hs
  have hread : ∀ following, opensEntry l.signed following = false →
      readLine s l.signed following = .ok (takeLine s l) := by
    intro following hn
    rw [readLine_of_body hb ho hn, readBody_signed l hb]
    rfl
  rw [BodyLine.print]
  cases hu : l.unended with
  | true =>
      have hmark : opensEntry l.signed (some unendedMark) = false := by
        simp [opensEntry, unendedMark, begins, List.isPrefixOf]
      show readLines s (l.signed :: unendedMark :: rest) = _
      have hfirst : readLine s l.signed (unendedMark :: rest).head? = .ok (takeLine s l) := hread _ hmark
      rw [readLines_cons_of_ok hfirst, readLines_cons_of_ok (readLine_unendedMark _ _)]
  | false =>
      show readLines s (l.signed :: rest) = _
      rw [readLines_cons_of_ok (hread _ (hl hu))]

/-- Whether the next line may be the second of two path lines. -/
theorem opensEntry_signed (l : BodyLine) (following : Option (List Char)) :
    opensEntry l.signed following
      = (l.side == .old && begins "-- " l.content.text.toList && following.any (begins "+++ ")) := by
  obtain ⟨side, content, unended⟩ := l
  cases side <;> rfl

theorem begins_signed (l : BodyLine) :
    begins "+++ " l.signed = (l.side == .new && begins "++ " l.content.text.toList) := by
  obtain ⟨side, content, unended⟩ := l
  cases side <;> rfl

theorem head?_print (l : BodyLine) (rest : List (List Char)) :
    (l.print ++ rest).head? = some l.signed := by
  rw [BodyLine.print]
  split <;> rfl

/-- Before a line that does not look like the second of two path lines no line is the first. -/
theorem opensEntry_of_isUnmistakable {l next : BodyLine} {more : List BodyLine}
    (h : isUnmistakable (l :: next :: more) = true) (hl : l.unended = false) :
    opensEntry l.signed (some next.signed) = false := by
  simp only [isUnmistakable, Bool.and_eq_true] at h
  have hnot := h.1
  simp only [looksLikePaths, hl, Bool.not_false, Bool.and_true, Bool.not_eq_true'] at hnot
  rw [opensEntry_signed, Option.any_some, begins_signed, ← Bool.and_assoc]
  exact hnot

/-- **The body of a hunk is read line by line to its end.** What is still promised is what is still
    to come, so the body is open before each of its lines. -/
theorem readLines_body (ls : List BodyLine) (hls : isUnmistakable ls = true)
    (rest : List (List Char)) (hrest : rest.head?.any (begins "+++ ") = false) :
    ∀ (s : Progress) (b : Body), s.body = some b → b.oldLeft = oldCount ls →
      b.newLeft = newCount ls →
      readLines s (ls.flatMap BodyLine.print ++ rest) = readLines (ls.foldl takeLine s) rest := by
  induction ls with
  | nil => intro s b _ _ _; rfl
  | cons l more ih =>
      intro s b hb hold hnew
      have hmore : isUnmistakable more = true := by
        cases more with
        | nil => rfl
        | cons next _ =>
            simp only [isUnmistakable, Bool.and_eq_true] at hls
            exact hls.2
      -- one of the two sides is still promised, namely one that `l` stands on
      have hopen : s.inBody = true := by
        simp only [oldCount, newCount, List.countP_cons] at hold hnew
        cases hside : l.side <;> simp [hside] at hold hnew <;>
          simp [Progress.inBody, hb, Body.isOpen] <;> omega
      -- what follows `l` is the next line of the body, or `rest` after the last
      have hpath : l.unended = false →
          opensEntry l.signed (more.flatMap BodyLine.print ++ rest).head? = false := by
        intro hu
        cases more with
        | nil => rw [opensEntry_signed, List.flatMap_nil, List.nil_append, hrest, Bool.and_false]
        | cons next _ =>
            rw [List.flatMap_cons, List.append_assoc, head?_print]
            exact opensEntry_of_isUnmistakable hls hu
      rw [List.flatMap_cons, List.append_assoc, readLines_bodyLine l hopen _ hpath, List.foldl_cons]
      refine ih hmore (takeLine s l) (takeInBody b l) (by rw [takeLine, hb]; rfl) ?_ ?_
      · cases hside : l.side <;> simp [takeInBody, hside, Body.keepLine, Body.addLine, hold,
          oldCount]
      · cases hside : l.side <;> simp [takeInBody, hside, Body.keepLine, Body.addLine, hnew,
          newCount]

/-- The body after some of its lines. -/
theorem foldl_takeInBody (ls : List BodyLine) :
    ∀ b : Body, b.next ≤ b.hunk.last + 1 →
      ls.foldl takeInBody b
        = ⟨⟨b.hunk.first, max b.hunk.last (b.next + newCount ls - 1),
            b.hunk.added ++ numbered b.next ls⟩,
          b.next + newCount ls, b.oldLeft - oldCount ls, b.newLeft - newCount ls⟩ := by
  induction ls with
  | nil =>
      intro b hb
      have hlast : max b.hunk.last (b.next - 1) = b.hunk.last := by omega
      simp [numbered, newCount, oldCount, hlast]
  | cons l rest ih =>
      intro b hb
      rw [List.foldl_cons]
      -- the end of the stretch is a maximum: a removed line leaves it where it is
      cases hside : l.side with
      | both =>
          have hnew : newCount (l :: rest) = newCount rest + 1 := by simp [newCount, hside]
          have hold : oldCount (l :: rest) = oldCount rest + 1 := by simp [oldCount, hside]
          have hnum : numbered b.next (l :: rest) = numbered (b.next + 1) rest := by
            simp [numbered, hside]
          rw [show takeInBody b l = b.keepLine by simp [takeInBody, hside], ih _ (by
            simp only [Body.keepLine]; omega), hnew, hold, hnum]
          simp only [Body.keepLine, Body.mk.injEq, Stretch.mk.injEq, true_and, and_true]
          refine ⟨?_, ?_, ?_, ?_⟩ <;> omega
      | old =>
          have hnew : newCount (l :: rest) = newCount rest := by simp [newCount, hside]
          have hold : oldCount (l :: rest) = oldCount rest + 1 := by simp [oldCount, hside]
          have hnum : numbered b.next (l :: rest) = numbered b.next rest := by
            simp [numbered, hside]
          rw [show takeInBody b l = { b with oldLeft := b.oldLeft - 1 } by simp [takeInBody, hside],
            ih { b with oldLeft := b.oldLeft - 1 } hb, hnew, hold, hnum]
          simp only [Body.mk.injEq, true_and, and_true]
          omega
      | new =>
          have hnew : newCount (l :: rest) = newCount rest + 1 := by simp [newCount, hside]
          have hold : oldCount (l :: rest) = oldCount rest := by simp [oldCount, hside]
          have hnum : numbered b.next (l :: rest)
              = ⟨b.next, l.content.text⟩ :: numbered (b.next + 1) rest := by
            simp [numbered, hside]
          rw [show takeInBody b l = b.addLine l.content.text.toList by simp [takeInBody, hside],
            ih _ (by simp only [Body.addLine]; omega), hnew, hold, hnum]
          simp only [Body.addLine, String.ofList_toList, List.append_assoc, List.singleton_append,
            Body.mk.injEq, Stretch.mk.injEq, true_and, and_true]
          refine ⟨?_, ?_, ?_⟩ <;> omega

/-- The progress after some lines of the open body. -/
theorem foldl_takeLine (ls : List BodyLine) (s : Progress) :
    ls.foldl takeLine s
      = { s with
          body := s.body.map (ls.foldl takeInBody ·)
          added := s.added + addedCount ls
          deleted := s.deleted + deletedCount ls } := by
  induction ls generalizing s with
  | nil => cases hb : s.body <;> simp [addedCount, deletedCount, ← hb]
  | cons l rest ih =>
      have hadded : addedCount (l :: rest) = addedCount [l] + addedCount rest := by
        simp [addedCount, List.countP_cons, Nat.add_comm]
      have hdeleted : deletedCount (l :: rest) = deletedCount [l] + deletedCount rest := by
        simp [deletedCount, List.countP_cons, Nat.add_comm]
      rw [List.foldl_cons, ih, hadded, hdeleted]
      simp [takeLine, Function.comp_def, Nat.add_assoc]

/-! ## Hunks -/

/-- The progress after a hunk. -/
def takeHunk (s : Progress) (h : Hunk) : Progress := h.lines.foldl takeLine (s.start h.promise)

/-- After a hunk nothing is promised, and the hunk is the last of its entry. -/
theorem takeHunk_eq (s : Progress) (h : Hunk) :
    takeHunk s h
      = { s.settle with
          body := some ⟨h.stretch, h.newStart + newCount h.lines, 0, 0⟩
          added := s.settle.added + addedCount h.lines
          deleted := s.settle.deleted + deletedCount h.lines } := by
  have hlast : max h.newStart (h.newStart + newCount h.lines - 1)
      = h.newStart + (newCount h.lines - 1) := by omega
  rw [takeHunk]
  rw [foldl_takeLine]
  simp only [Progress.start, Option.map_some, Hunk.promise]
  rw [foldl_takeInBody _ _ (Nat.le_succ _)]
  simp [Hunk.stretch, hlast]

theorem settle_takeHunk (s : Progress) (h : Hunk) :
    (takeHunk s h).settle
      = { s.settle with
          entry := s.settle.entry.map fun e => { e with hunks := e.hunks ++ [h.stretch] }
          added := s.settle.added + addedCount h.lines
          deleted := s.settle.deleted + deletedCount h.lines } := by
  rw [takeHunk_eq, Progress.mk.injEq]
  refine ⟨rfl, rfl, ?_, rfl, rfl⟩
  exact s.body_settle.symm

/-- The lines written for a hunk are read as that hunk, if the numbers of its header can be taken. -/
theorem readLines_hunk (h : Hunk) {s : Progress} (hin : s.inBody = false)
    (hentry : s.entry.isSome = true) (rest : List (List Char))
    (hrest : rest.head?.any (begins "+++ ") = false) :
    readLines s (h.print ++ rest) = h.promised >>= fun _ => readLines (takeHunk s h) rest := by
  rw [Hunk.print, List.cons_append, readLines_cons, readLine_of_not_inBody hin,
    h.readHeader_header s hentry]
  cases hpromise : h.promised with
  | error e => rfl
  | ok p =>
      obtain ⟨-, rfl⟩ := h.promised_eq_ok_iff.1 hpromise
      exact readLines_body h.lines h.unmistakable rest hrest _ _ rfl rfl rfl

/-- The lines written for hunks are read as those hunks, if the numbers of all headers can be taken. -/
theorem readLines_hunks (hs : List Hunk) :
    ∀ s : Progress, s.inBody = false → s.entry.isSome = true →
      readLines s (hs.flatMap Hunk.print)
        = (hs.mapM Hunk.promised).map fun _ => hs.foldl takeHunk s := by
  induction hs with
  | nil => intro s _ _; rfl
  | cons h more ih =>
      intro s hin hentry
      have hrest : (more.flatMap Hunk.print).head?.any (begins "+++ ") = false := by
        cases more <;> rfl
      have hmore := ih (takeHunk s h) (by rw [takeHunk_eq]; rfl)
        (by rw [takeHunk_eq]; exact s.isSome_entry_settle.trans hentry)
      rw [List.flatMap_cons, readLines_hunk h hin hentry _ hrest, hmore, List.mapM_cons]
      cases h.promised with
      | error e => rfl
      | ok p =>
          show Except.map _ (more.mapM Hunk.promised) = _
          cases more.mapM Hunk.promised <;> rfl

/-- The hunks that were read are those of the entry, in order. -/
theorem settle_foldl_takeHunk (hs : List Hunk) (s : Progress) :
    (hs.foldl takeHunk s).settle
      = { s.settle with
          entry := s.settle.entry.map fun e => { e with hunks := e.hunks ++ hs.map Hunk.stretch }
          added := s.settle.added + addedCount (hs.flatMap (·.lines))
          deleted := s.settle.deleted + deletedCount (hs.flatMap (·.lines)) } := by
  induction hs generalizing s with
  | nil =>
      have hsame : s.settle.entry.map (fun e => { e with hunks := e.hunks ++ [] }) = s.settle.entry := by
        simp
      simp only [List.foldl_nil, List.map_nil, hsame]
      rfl
  | cons h more ih =>
      rw [List.foldl_cons, ih, settle_takeHunk]
      simp [addedCount, deletedCount, Function.comp_def, Nat.add_assoc]

/-! ## Files -/

theorem HeaderPath.ne_nowhere (p : HeaderPath) : p.text ≠ nowhere := by
  have hproper := p.proper
  simp only [isHeaderPath, Bool.and_eq_true, bne_iff_ne] at hproper
  exact hproper.2

theorem realPath_text (p : HeaderPath) : realPath (some p.text) = some p.text :=
  if_neg fun h => p.ne_nowhere (Option.some.inj h)

theorem filter_text (p : HeaderPath) : (some p.text).filter (· ≠ "") = some p.text := by
  have hproper := p.proper
  simp only [isHeaderPath, Bool.and_eq_true, Bool.not_eq_true', List.isEmpty_eq_false_iff] at hproper
  have hne : p.text ≠ "" := fun h => hproper.1.1.1.2 (by rw [h]; rfl)
  simp [Option.filter, hne]

theorem firstPath_text (p : HeaderPath) (other : Option String) :
    firstPath (some p.text) other = some p.text := by
  rw [firstPath, filter_text]

/-- The entry of a file, with its hunks, is what is changed of it. -/
theorem change_entry (f : File) :
    ({ f.edit.entry with hunks := f.hunks.map Hunk.stretch } : Entry).change = some f.change := by
  obtain ⟨edit, hunks⟩ := f
  have hnowhere : realPath (some nowhere) = none := rfl
  cases edit with
  | modified path =>
      simp only [Entry.change, Edit.entry, realPath_text, firstPath_text, filter_text]
      simp [HeaderPath.ne_nowhere, File.change, Edit.newPath, Edit.oldPath?, Edit.oldPath,
        Edit.status, Hunk.change]
  | created path mode =>
      simp only [Entry.change, Edit.entry, realPath_text, firstPath_text]
      simp [HeaderPath.ne_nowhere, hnowhere, File.change, Edit.newPath, Edit.oldPath?, Edit.status,
        Hunk.change]
  | deleted path mode =>
      simp only [Entry.change, Edit.entry, realPath_text, firstPath_text]
      simp [File.change, Edit.newPath, Edit.oldPath?, Edit.oldPath, Edit.status, Hunk.change]
  | renamed old new differ =>
      simp only [Entry.change, Edit.entry, realPath_text, firstPath_text, filter_text]
      simp [HeaderPath.ne_nowhere, differ, File.change, Edit.newPath, Edit.oldPath?, Edit.oldPath,
        Edit.status, Hunk.change]

theorem hunks_entry (e : Edit) : e.entry.hunks = [] := by cases e <;> rfl

/-- The lines written for a file are read as what is changed of it, if the numbers of its hunk headers
    can be taken. -/
theorem resultOf_print (f : File) :
    resultOf f.print = (f.hunks.mapM Hunk.promised).map fun _ => diff [f] := by
  have hsettle : (opened f.edit.entry).settle = opened f.edit.entry := rfl
  have hclose : ((f.hunks.foldl takeHunk (opened f.edit.entry)).settle.entry.bind Entry.change)
      = some f.change := by
    rw [settle_foldl_takeHunk, hsettle]
    simp only [opened, Option.map_some, Option.bind_some, hunks_entry, List.nil_append]
    exact change_entry f
  have hresult : (f.hunks.foldl takeHunk (opened f.edit.entry)).result = diff [f] := by
    simp only [Progress.result, Progress.close]
    rw [hclose, settle_foldl_takeHunk, hsettle]
    simp [opened, diff, bodyLines]
  rw [resultOf, File.print, readLines_header, readLines_hunks _ _ rfl rfl]
  cases f.hunks.mapM Hunk.promised with
  | error e => rfl
  | ok ps => exact congrArg Except.ok hresult

/-- What several files change. -/
theorem diff_cons (f : File) (files : List File) :
    diff (f :: files) = (diff [f]).append (diff files) := by
  simp [diff, Diff.append, bodyLines, addedCount, deletedCount, Int.add_comm]

/-- The hunks of several files. -/
def hunksOf (files : List File) : List Hunk := files.flatMap (·.hunks)

theorem hunksOf_cons (f : File) (files : List File) :
    hunksOf (f :: files) = f.hunks ++ hunksOf files := rfl

/-- **The lines written for files are read as what is changed of them**, if the numbers of their hunk
    headers can be taken. Each file's lines start with one that opens an entry, whatever was read before
    it. -/
theorem resultOf_flatMap (files : List File) :
    resultOf (files.flatMap File.print)
      = ((hunksOf files).mapM Hunk.promised).map fun _ => diff files := by
  induction files with
  | nil => rfl
  | cons f more ih =>
      have hfiles : resultOf ((f :: more).flatMap File.print)
          = (do return (← resultOf f.print).append (← resultOf (more.flatMap File.print))) := by
        cases more with
        | nil =>
            rw [List.flatMap_cons, List.flatMap_nil, List.append_nil]
            show _ = resultOf f.print >>= fun d => Except.ok (d.append (diff []))
            rw [resultOf_print]
            cases f.hunks.mapM Hunk.promised with
            | error e => rfl
            | ok ps => exact congrArg Except.ok (diff_cons f [])
        -- a file starts with its `diff --git` line, which opens an entry after anything
        | cons next rest => exact resultOf_append rfl fun s _ => rfl
      rw [hfiles, resultOf_print, ih, hunksOf_cons, List.mapM_append]
      cases f.hunks.mapM Hunk.promised with
      | error e => rfl
      | ok ps =>
          cases (hunksOf more).mapM Hunk.promised with
          | error e => rfl
          | ok qs => exact congrArg Except.ok (diff_cons f more).symm

/-! ## The round trip -/

/-- A patch that is written out is read as what it changes, unless it is refused for a number in a hunk
    header. -/
theorem read_print (files : List File) :
    read (print files) = ((hunksOf files).mapM Hunk.promised).map fun _ => diff files := by
  rw [read_eq_resultOf, lines_print]
  exact resultOf_flatMap files

/-- **A patch that is written out is read as what it changes**, whatever its files, its hunks and the
    lines of their bodies, exactly if no number that is asked for in a hunk header has too many digits. -/
theorem read_print_iff (files : List File) :
    read (print files) = .ok (diff files) ↔ ∀ f ∈ files, ∀ h ∈ f.hunks, h.IsCountable := by
  have hhunks : (∀ f ∈ files, ∀ h ∈ f.hunks, h.IsCountable) ↔ ∀ h ∈ hunksOf files, h.IsCountable := by
    simp only [hunksOf, List.mem_flatMap, forall_exists_index, and_imp]
    exact ⟨fun hall h f hf hh => hall f hf h hh, fun hall f hf h hh => hall h f hf hh⟩
  rw [hhunks, read_print, map_eq_ok_iff]
  simp only [mapM_eq_ok_iff, Hunk.promised_eq_ok_iff, List.forall₂_and_left]
  constructor
  · rintro ⟨ps, ⟨hall, -⟩, -⟩
    exact hall
  · intro hall
    refine ⟨(hunksOf files).map Hunk.promise, ⟨hall, ?_⟩, trivial⟩
    rw [List.forall₂_map_right_iff, List.forall₂_same]
    exact fun h _ => rfl

/-- One line of a file `x` is removed, at some place. -/
def removalAt (start : Nat) : List File :=
  [⟨.modified ⟨"x", by decide⟩, [{
    oldStart := 1, newStart := start, lines := [⟨.old, ⟨"a", by decide⟩, false⟩], unmistakable := rfl }]⟩]

/-- It is refused where the number of the place has too many digits. -/
theorem read_removalAt {start : Nat} (h : digitLimit < (digits start).length) :
    read (print (removalAt start)) = .error ⟨(digits start).length⟩ := by
  have hold : (rangeOf 1 1 false).size = .ok 1 := by decide +kernel
  rw [read_print]
  show (((rangeOf 1 1 false).size >>= fun _ => numberOf (digits start) >>= _) >>= _).map _ = _
  rw [hold, numberOf_of_lt h]
  rfl

/-- Far enough down in a file a change can be written, but what is written is refused. -/
theorem read_print_farDown :
    read (print (removalAt (10 ^ digitLimit))) = .error ⟨digitLimit + 1⟩ ∧
      read (print (removalAt (10 ^ digitLimit))) ≠ .ok (diff (removalAt (10 ^ digitLimit))) := by
  have hlength := length_digits_pow digitLimit
  have hrefused := read_removalAt (Nat.lt_of_lt_of_eq (Nat.lt_succ_self digitLimit) hlength.symm)
  rw [hlength] at hrefused
  rw [hrefused]
  exact ⟨rfl, nofun⟩

end PatchReview.Patch
