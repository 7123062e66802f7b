import PatchReview.Proofs.Diff.RoundTrip
import PatchReview.Proofs.Diff.WellFormed
import PatchReview.Proofs.Tree.Standing

/-!
# The diff that creates a file

A diff numbers the lines that it adds, and a comment names a line of the file by its number, so the two
should count alike. They cut texts differently: a line of a file ends at a line feed, a line of a diff at
any line boundary. `Creation.diff` is the diff that creates a file, with one added line for each line of
the file. It is read as those lines exactly if the file's text holds no other line boundary, the file's
path can be read off its header and the number of lines does not have too many digits
(`numbers_creation_iff`).

Where nothing else ends a line, the lines of the diff are those that were written, so it is read line by
line (`read_creation`). Otherwise some line of the file holds a line boundary, and no added line of any
diff does (`isUnbroken_of_mem_added`).
-/

namespace PatchReview.Diff

open PatchReview.Text PatchReview.Patch

/-! ## Bodies of added lines -/

/-- Lines as the added lines of a hunk's body. -/
def addedLines (ls : List LineText) : List BodyLine := ls.map fun l => ⟨.new, l, false⟩

section

variable (ls : List LineText)

@[simp] theorem oldCount_addedLines : oldCount (addedLines ls) = 0 := by
  simp [oldCount, addedLines, List.countP_map, List.countP_eq_zero]

@[simp] theorem newCount_addedLines : newCount (addedLines ls) = ls.length := by
  simp [newCount, addedLines, List.countP_map, Function.comp_def]

@[simp] theorem addedCount_addedLines : addedCount (addedLines ls) = ls.length := by
  simp [addedCount, addedLines, List.countP_map, Function.comp_def]

@[simp] theorem deletedCount_addedLines : deletedCount (addedLines ls) = 0 := by
  simp [deletedCount, addedLines, List.countP_map, List.countP_eq_zero]

theorem isUnmistakable_addedLines : isUnmistakable (addedLines ls) = true := by
  induction ls with
  | nil => rfl
  | cons l rest ih =>
      cases rest with
      | nil => rfl
      | cons next more => exact ih

theorem flatMap_print_addedLines :
    (addedLines ls).flatMap BodyLine.print = ls.map fun l => '+' :: l.text.toList := by
  induction ls with
  | nil => rfl
  | cons l rest ih => exact congrArg (('+' :: l.text.toList) :: ·) ih

/-- Added lines are numbered one after another. -/
theorem numbered_addedLines (next : Nat) :
    numbered next (addedLines ls)
      = (ls.map (·.text)).mapIdx fun i text => ⟨(next + i : Nat), text⟩ := by
  induction ls generalizing next with
  | nil => rfl
  | cons l rest ih =>
      have hrest : numbered next (addedLines (l :: rest))
          = ⟨next, l.text⟩ :: numbered (next + 1) (addedLines rest) := rfl
      rw [hrest, ih, List.map_cons, List.mapIdx_cons]
      simp [Nat.add_assoc, Nat.add_comm 1]

/-- The hunk that adds lines to a file that was not there. -/
def creatingHunk (short : Bool) : Patch.Hunk where
  oldStart := 0
  newStart := 1
  lines := addedLines ls
  shortNew := short
  unmistakable := isUnmistakable_addedLines ls

/-- Its header can be read if the number of lines has not too many digits. -/
theorem isCountable_creatingHunk_iff (short : Bool) :
    (creatingHunk ls short).IsCountable ↔ ls.length < 10 ^ digitLimit := by
  have hold : oldCount (creatingHunk ls short).lines = 0 := oldCount_addedLines ls
  have hnew : newCount (creatingHunk ls short).lines = ls.length := newCount_addedLines ls
  constructor
  · intro h
    exact hnew ▸ h.newCount
  · intro h
    exact ⟨lt_of_eq_of_lt hold (Nat.pow_pos (by decide)),
      Nat.one_lt_pow (by decide) (by decide), lt_of_eq_of_lt hnew h⟩

end

/-- An entry with one hunk is read as what it describes. -/
theorem result_takeHunk (e : Entry) (h : Patch.Hunk) :
    (takeHunk (opened e) h).result
      = ⟨({ e with hunks := e.hunks ++ [h.stretch] } : Entry).change.toList,
          ⟨addedCount h.lines, deletedCount h.lines,
            ({ e with hunks := e.hunks ++ [h.stretch] } : Entry).change.toList.length⟩⟩ := by
  have hsettle : (opened e).settle = opened e := rfl
  rw [Progress.result, Progress.close, settle_takeHunk, hsettle]
  simp [opened]

/-- Unbroken lines are texts that stand on one line. -/
theorem exists_lineTexts {ls : List (List Char)} (h : ∀ l ∈ ls, isUnbroken l = true) :
    ∃ texts : List LineText, texts.map (·.text.toList) = ls := by
  refine ⟨ls.pmap (fun l hl => ⟨String.ofList l, by rwa [String.toList_ofList]⟩) h, ?_⟩
  simp [List.map_pmap]

/-! ## Creations -/

/-- A file that a diff creates: where it is, what it holds, what the header says of its mode and its
    content, and whether a count of one line is left out. -/
structure Creation where
  path  : LineText
  text  : String
  mode  : LineText
  index : LineText
  short : Bool := false

namespace Creation

variable (c : Creation)

/-- The lines of the file. -/
def contents : List (List Char) := feedLines c.text.toList

/-- The header of the file. -/
def header : List (List Char) :=
  [ "diff --git ".toList ++ ("a/".toList ++ (c.path.text.toList ++ (" b/".toList ++ c.path.text.toList))),
    "new file mode ".toList ++ c.mode.text.toList,
    "index ".toList ++ c.index.text.toList,
    "--- ".toList ++ nowhere.toList,
    "+++ ".toList ++ ("b/".toList ++ c.path.text.toList) ]

/-- The header of the hunk. -/
def hunkHeader : List Char :=
  "@@ -".toList ++ (printSide 0 0 false ++ (" +".toList ++
    (printSide 1 c.contents.length c.short ++ " @@".toList)))

/-- The lines of the diff. The last line of the file is marked if nothing ends it. -/
def print : List (List Char) :=
  c.header ++ (c.hunkHeader :: (c.contents.map ('+' :: ·) ++
    if isEnded c.text.toList then [] else [unendedMark]))

/-- The diff that creates the file. -/
def diff : String := String.ofList (c.print.flatMap (· ++ ['\n']))

/-- Whether the path can be read off the header: more than blanks stands in it before any tab. -/
def isNamed : Bool := (c.path.text.toList.takeWhile (· ≠ '\t')).any (!isBlank ·)

/-- The entry that the diff is read as. -/
def entry : Entry where
  oldPath := some nowhere
  newPath := some (headerPath ("b/".toList ++ c.path.text.toList))
  isNew := true
  hunks := [⟨1, 1 + (c.contents.length - 1),
    (c.contents.map String.ofList).mapIdx fun i line => ⟨i + 1, line⟩⟩]

/-! ### Lines without another line boundary -/

/-- Where the lines of the file are unbroken, so are those of the diff. -/
theorem isUnbroken_print (h : ∀ l ∈ c.contents, isUnbroken l = true) :
    ∀ line ∈ c.print, isUnbroken line = true := by
  intro line hline
  rcases List.mem_append.1 hline with hheader | hhunk
  · simp only [header, List.mem_cons, List.not_mem_nil, or_false] at hheader
    rcases hheader with rfl | rfl | rfl | rfl | rfl
    · simp only [isUnbroken_append, c.path.unbroken]
      decide
    · rw [isUnbroken_append, c.mode.unbroken]
      decide
    · rw [isUnbroken_append, c.index.unbroken]
      decide
    · decide
    · simp only [isUnbroken_append, c.path.unbroken]
      decide
  rcases List.mem_cons.1 hhunk with rfl | hbody
  · simp only [hunkHeader, isUnbroken_append, isUnbroken_printSide]
    decide
  rcases List.mem_append.1 hbody with hadded | hmark
  · obtain ⟨l, hl, rfl⟩ := List.mem_map.1 hadded
    rw [isUnbroken_cons, h l hl]
    decide
  · split at hmark
    · cases hmark
    · rw [List.mem_singleton.1 hmark]
      decide

/-- So the lines that are written are the lines that are read. -/
theorem lines_diff (h : ∀ l ∈ c.contents, isUnbroken l = true) :
    lines c.diff.toList = c.print := by
  rw [diff, String.toList_ofList, lines_flatMap (c.isUnbroken_print h)]

/-- The header opens an entry that names the file. -/
theorem readLines_header (rest : List (List Char)) :
    readLines {} (c.header ++ rest) = readLines (opened { c.entry with hunks := [] }) rest := by
  have hnowhere : headerPath nowhere.toList = nowhere := by decide +kernel
  have hindex : ∀ e raw more, readLines (opened e) (("index ".toList ++ raw) :: more)
      = readLines (opened e) more := fun _ _ _ => rfl
  rw [header, List.cons_append]
  obtain ⟨paths?, hpaths⟩ := readLines_gitLine
    ("a/".toList ++ (c.path.text.toList ++ (" b/".toList ++ c.path.text.toList))) _
  rw [hpaths]
  simp only [List.cons_append, List.nil_append]
  rw [readLines_opened_created, hindex, readLines_opened_oldSide _ rfl, readLines_opened_newSide,
    hnowhere]
  rfl

/-- **Where nothing else ends a line the diff is read as it was written**, if its number of lines can be
    taken. -/
theorem read_creation (h : ∀ l ∈ c.contents, isUnbroken l = true) {d : Diff} :
    read c.diff = .ok d ↔ c.contents.length < 10 ^ digitLimit ∧
      d = ⟨c.entry.change.toList, c.contents.length, 0, c.entry.change.toList.length⟩ := by
  obtain ⟨texts, htexts⟩ := exists_lineTexts h
  have hlength : texts.length = c.contents.length := by rw [← htexts, List.length_map]
  have hbody : c.contents.map ('+' :: ·) = (addedLines texts).flatMap BodyLine.print := by
    rw [flatMap_print_addedLines, ← htexts, List.map_map]
    rfl
  have hheader : c.hunkHeader = (creatingHunk texts c.short).header := by
    simp [hunkHeader, Patch.Hunk.header, creatingHunk, hlength]
  have hnumbered : c.entry.hunks = [(creatingHunk texts c.short).stretch] := by
    have htext : texts.map (·.text) = c.contents.map String.ofList := by
      rw [← htexts, List.map_map]
      simp [Function.comp_def]
    rw [entry, Patch.Hunk.stretch, creatingHunk, numbered_addedLines, newCount_addedLines, hlength,
      htext]
    simp [Int.add_comm]
  have hmark : ∀ s, readLines s (if isEnded c.text.toList then [] else [unendedMark]) = .ok s := by
    intro s
    split
    · rfl
    · exact readLines_cons_of_ok (readLine_unendedMark s _)
  have hrest : (if isEnded c.text.toList then [] else [unendedMark]).head?.any (begins "+++ ")
      = false := by
    split
    · rfl
    · decide
  have hprint : c.print = c.header ++ ((creatingHunk texts c.short).print ++
      if isEnded c.text.toList then [] else [unendedMark]) := by
    rw [print, hheader, hbody]
    rfl
  have hentry : ({ c.entry with hunks := [] ++ [(creatingHunk texts c.short).stretch] } : Entry)
      = c.entry := by
    rw [List.nil_append, ← hnumbered]
  have hadded : addedCount (creatingHunk texts c.short).lines = c.contents.length :=
    (addedCount_addedLines texts).trans hlength
  have hdeleted : deletedCount (creatingHunk texts c.short).lines = 0 := deletedCount_addedLines texts
  have hresult : (takeHunk (opened { c.entry with hunks := [] }) (creatingHunk texts c.short)).result
      = ⟨c.entry.change.toList, c.contents.length, 0, c.entry.change.toList.length⟩ := by
    rw [result_takeHunk, hentry, hadded, hdeleted]
    rfl
  rw [read_eq_resultOf, c.lines_diff h, resultOf, hprint, readLines_header,
    readLines_hunk _ rfl rfl _ hrest, map_eq_ok_iff]
  simp only [bind_eq_ok_iff, Hunk.promised_eq_ok_iff, isCountable_creatingHunk_iff, hlength, hmark]
  constructor
  · rintro ⟨_, ⟨_, ⟨hcount, -⟩, ⟨⟩⟩, rfl⟩
    exact ⟨hcount, hresult⟩
  · rintro ⟨hcount, rfl⟩
    exact ⟨_, ⟨_, ⟨hcount, rfl⟩, rfl⟩, hresult⟩

/-! ### The path in the header -/

/-- What is left of a text that starts with no blank: only blanks at its end are stripped. -/
theorem strip_sided (cs : List Char) :
    strip ('b' :: '/' :: cs) = 'b' :: '/' :: (cs.reverse.dropWhile isBlank).reverse := by
  have hb : isBlank 'b' = false := by decide
  have hslash : isBlank '/' = false := by decide
  rw [strip, trimmed, List.dropWhile_cons_of_neg (by simp [hb]), List.reverse_cons, List.reverse_cons,
    List.append_assoc, List.dropWhile_append]
  cases hrest : cs.reverse.dropWhile isBlank with
  | nil => simp [hslash]
  | cons d more => simp

/-- What is read of the path in the header: what stands before a tab, without the blanks at its end. -/
def legible : List Char := ((c.path.text.toList.takeWhile (· ≠ '\t')).reverse.dropWhile isBlank).reverse

theorem legible_prefix : c.legible <+: c.path.text.toList := by
  have hkept : c.legible <+: c.path.text.toList.takeWhile (· ≠ '\t') := by
    rw [← List.reverse_suffix, legible, List.reverse_reverse]
    exact List.dropWhile_suffix _
  exact hkept.trans (List.takeWhile_prefix _)

theorem legible_eq_nil_iff : c.legible = [] ↔ c.isNamed = false := by
  rw [legible, List.reverse_eq_nil_iff, List.dropWhile_eq_nil_iff, isNamed]
  simp

/-- The new path is read without its side, as far as it is legible. -/
theorem headerPath_new : headerPath ("b/".toList ++ c.path.text.toList) = String.ofList c.legible := by
  have hside : "b/".toList ++ c.path.text.toList = 'b' :: '/' :: c.path.text.toList := rfl
  have htake : ('b' :: '/' :: c.path.text.toList).takeWhile (· ≠ '\t')
      = 'b' :: '/' :: c.path.text.toList.takeWhile (· ≠ '\t') := by
    rw [List.takeWhile_cons_of_pos (by decide), List.takeWhile_cons_of_pos (by decide)]
  have hunquote : ∀ rest : List Char, unquote ('b' :: rest) = 'b' :: rest := by
    intro rest
    rw [unquote, if_neg]
    rintro ⟨-, hquote, -⟩
    cases hquote
  have hreal : ∀ rest : List Char, String.ofList ('b' :: rest) ≠ nowhere := by
    intro rest heq
    have hhead := congrArg (fun text : String => text.toList.head?) heq
    rw [String.toList_ofList] at hhead
    cases hhead
  rw [hside, headerPath]
  simp only [htake, strip_sided, hunquote, if_neg (hreal _)]
  rfl

/-- A path that starts where it is read is not read as the one that stands for no file. -/
theorem legible_ne_nowhere (hstart : Path.anchorOf c.path.text = .here) :
    String.ofList c.legible ≠ nowhere := by
  intro heq
  obtain ⟨rest, hrest⟩ := c.legible_prefix
  rw [← String.toList_ofList (l := c.legible), heq] at hrest
  have hslash : c.path.text.toList = '/' :: ("dev/null".toList ++ rest) := hrest.symm
  rw [Path.anchorOf, hslash, List.takeWhile_cons_of_pos (by decide), List.length_cons] at hstart
  split at hstart
  · rename_i hzero
    cases hzero
  · cases hstart
  · cases hstart

/-- **The file is listed exactly if its path can be read off the header.** -/
theorem isSome_change_iff (hstart : Path.anchorOf c.path.text = .here) :
    c.entry.change.isSome = true ↔ c.isNamed = true := by
  have hold : namesFile (some nowhere) = false := by decide
  have hnew : namesFile (some (String.ofList c.legible)) = c.isNamed := by
    rw [namesFile, Option.any_some]
    cases hnamed : c.isNamed with
    | false =>
        rw [c.legible_eq_nil_iff.2 hnamed]
        rfl
    | true =>
        have hne : c.legible ≠ [] := by
          rw [Ne, c.legible_eq_nil_iff, hnamed]
          decide
        simpa [← String.toList_eq_nil_iff] using ⟨hne, c.legible_ne_nowhere hstart⟩
  have hnameless : c.entry.isNameless = !c.isNamed := by
    rw [Entry.isNameless, entry, headerPath_new, hold, hnew, Bool.not_false, Bool.true_and]
  rw [Option.isSome_iff_ne_none, Ne, change_eq_none_iff, hnameless]
  simp

end Creation

/-! ## The numbers of a created file -/

/-- Whether a diff has one file with one hunk, which adds those lines, numbered from one, and nothing
    else is counted. -/
def Numbers (d : Diff) (ls : List String) (count : Nat) : Prop :=
  ∃ f h, d.files = [f] ∧ f.hunks = [h] ∧ h.added = (ls.mapIdx fun i line => ⟨i + 1, line⟩) ∧
    d.totals.added = count

namespace Creation

variable (c : Creation)

/-- The diff numbers the lines of the file exactly if it names the file, the lines hold no line
    boundary and their number can be taken. -/
theorem numbers_iff (hstart : Path.anchorOf c.path.text = .here) :
    (∃ d, read c.diff = .ok d ∧ Numbers d (c.contents.map String.ofList) c.contents.length) ↔
      c.isNamed = true ∧ (∀ l ∈ c.contents, isUnbroken l = true) ∧
        c.contents.length < 10 ^ digitLimit := by
  constructor
  · rintro ⟨d, hread, f, h, hfile, hhunk, hadded, -⟩
    have hunbroken : ∀ l ∈ c.contents, isUnbroken l = true := by
      intro l hl
      obtain ⟨i, hi, rfl⟩ := List.getElem_of_mem hl
      have hline : (⟨i + 1, String.ofList c.contents[i]⟩ : AddedLine) ∈ h.added := by
        rw [hadded]
        exact List.mem_mapIdx.2 ⟨i, by simpa using hi, by simp⟩
      have hline := isUnbroken_of_mem_added hread (by rw [hfile]; exact List.mem_singleton_self f)
        (by rw [hhunk]; exact List.mem_singleton_self h) hline
      rwa [String.toList_ofList] at hline
    obtain ⟨hcount, rfl⟩ := (c.read_creation hunbroken).1 hread
    refine ⟨?_, hunbroken, hcount⟩
    rw [← c.isSome_change_iff hstart]
    cases hchange : c.entry.change with
    | none => rw [hchange] at hfile; cases hfile
    | some f => rfl
  · rintro ⟨hnamed, hunbroken, hcount⟩
    obtain ⟨f, hf⟩ := Option.isSome_iff_exists.1 ((c.isSome_change_iff hstart).2 hnamed)
    refine ⟨_, (c.read_creation hunbroken).2 ⟨hcount, rfl⟩, ?_⟩
    rw [hf]
    exact ⟨f, _, rfl, hunks_of_change hf, rfl, rfl⟩

/-- The lines of the file's bytes, without the empty one after the last line feed. -/
theorem linesOfBytes_text (hreturn : '\r' ∉ c.text.toList) :
    (if isEnded c.text.toList then (linesOfBytes c.text.toUTF8).dropLast
      else linesOfBytes c.text.toUTF8) = c.contents.map String.ofList := by
  rw [linesOfBytes, Utf8.decode_toUTF8, fileLines_eq hreturn, contents]
  by_cases hended : isEnded c.text.toList = true
  · simp [hended]
  · simp [hended]

end Creation

/-- **The diff that creates a file numbers the lines of the file, if only line feeds end them.** The
    lines are those that are read of the file, whatever its text; the diff has one file with one hunk
    that adds them one by one exactly if its header names the file, the text holds no line boundary
    but line feeds and the number of its lines has not too many digits. -/
theorem numbers_creation_iff {t : Tree} {root names : Location} (c : Creation)
    (hpath : c.path.text = "/".intercalate names) (hne : names ≠ [])
    (hfile : t.at? (root ++ names) = some (.file c.text.toUTF8)) (hreturn : '\r' ∉ c.text.toList) :
    ∃ ls, t.lines root c.path.text = .ok (some ls) ∧
      ((∃ d, read c.diff = .ok d ∧
          Numbers d (if isEnded c.text.toList then ls.dropLast else ls) c.contents.length) ↔
        c.isNamed = true ∧ (∀ ch ∈ c.text.toList, isLineBoundary ch = true → ch = '\n') ∧
          c.contents.length < 10 ^ digitLimit) := by
  have hstart : Path.anchorOf c.path.text = .here := by
    rw [hpath]
    exact Path.anchorOf_intercalate hne (Tree.all_isSingle_of_isFile hfile)
  refine ⟨linesOfBytes c.text.toUTF8, by rw [hpath]; exact Tree.lines_isFile hne hfile, ?_⟩
  rw [c.linesOfBytes_text hreturn, c.numbers_iff hstart, Creation.contents, isUnbroken_feedLines_iff]

/-- The file `a.ts` with that text. -/
def scriptOf (text : String) : Creation where
  path := ⟨"a.ts", by decide⟩
  text := text
  mode := ⟨"100644", by decide⟩
  index := ⟨"0000000..1111111", by decide⟩

/-- A root with that file. -/
def rootOf (text : String) : Tree := Tree.empty.write ["repo", "a.ts"] text.toUTF8

theorem path_scriptOf (text : String) : (scriptOf text).path.text = "/".intercalate ["a.ts"] :=
  (by decide +kernel : "a.ts" = "/".intercalate ["a.ts"])

theorem at?_rootOf (text : String) :
    (rootOf text).at? (["repo"] ++ ["a.ts"]) = some (.file (scriptOf text).text.toUTF8) := by
  cbv

/-- A file of two lines, of which the last is not ended: the diff numbers both. -/
theorem numbers_creation_iff_twoLines :
    '\r' ∉ "a\nb".toList ∧
      ∃ ls, (rootOf "a\nb").lines ["repo"] "a.ts" = .ok (some ls) ∧
        ∃ d, read (scriptOf "a\nb").diff = .ok d ∧ Numbers d ls 2 := by
  have hreturn : '\r' ∉ (scriptOf "a\nb").text.toList := by decide +kernel
  have hunbroken : ∀ l ∈ (scriptOf "a\nb").contents, isUnbroken l = true := by decide +kernel
  have hunended : isEnded (scriptOf "a\nb").text.toList = false := by decide +kernel
  have hcount : (scriptOf "a\nb").contents.length = 2 := by decide +kernel
  obtain ⟨ls, hls, hiff⟩ := numbers_creation_iff (scriptOf "a\nb") (path_scriptOf "a\nb")
    (List.cons_ne_nil _ _) (at?_rootOf "a\nb") hreturn
  rw [hunended, hcount] at hiff
  have hlimit : 2 < 10 ^ digitLimit :=
    Nat.lt_of_lt_of_le (by decide : 2 < 10 ^ 1) (Nat.pow_le_pow_right (by decide) (by decide))
  exact ⟨hreturn, ls, hls,
    hiff.2 ⟨by decide +kernel, (isUnbroken_feedLines_iff _).1 hunbroken, hlimit⟩⟩

/-- A file of two lines, of which the first holds a form feed. The diff adds one, which ends there; what
    follows it ends the hunk, so the second line is lost. -/
theorem numbers_formFeed :
    (rootOf "a\x0cb\nc\n").lines ["repo"] "a.ts" = .ok (some ["a\x0cb", "c", ""]) ∧
      read (scriptOf "a\x0cb\nc\n").diff
        = .ok ⟨[⟨"a.ts", none, .added, [⟨"a.ts", 1, 1, [⟨1, "a"⟩]⟩]⟩], ⟨1, 0, 1⟩⟩ := by
  have hlines : linesOfBytes (scriptOf "a\x0cb\nc\n").text.toUTF8 = ["a\x0cb", "c", ""] := by
    decide +kernel
  have hread := Tree.lines_isFile (List.cons_ne_nil _ _) (at?_rootOf "a\x0cb\nc\n")
  rw [← path_scriptOf "a\x0cb\nc\n", hlines] at hread
  exact ⟨hread, by decide +kernel⟩

end PatchReview.Diff
