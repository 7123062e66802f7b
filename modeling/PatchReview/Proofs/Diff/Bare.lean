import Mathlib
import PatchReview.Proofs.Diff.RoundTrip
import PatchReview.Proofs.Diff.WellFormed

/-!
# Entries without path lines

A change of a file's mode, of a binary file or of a file without lines has no hunk and no path lines, so
the path is read off the `diff --git` line alone. It stands there twice, with only a space between, and
the line is cut at the first place where a second path can start. That is the right place exactly if the
path holds no ` b/` itself (`read_bare_iff`).

Where it does, the line is cut within the first path: what is read of the old path is shorter than the path
and what is read of the new one is longer (`gitPaths?_of_infix`), so neither is the path, whatever the
lines after it say (`read_bare_cutEarly`).
-/

namespace PatchReview.Diff

open PatchReview.Text PatchReview.Patch

/-! ## Cutting two paths apart -/

/-- Whether two paths can be cut apart at a space: a second path stands after it, and something before. -/
structure IsCut (cs first second : List Char) : Prop where
  text   : cs = first ++ ' ' :: second
  ne_nil : first ≠ []
  opens  : isSecondPath second = true

/-- Whether a cut is the first that can be made. -/
structure IsFirstCut (cs first second : List Char) : Prop extends IsCut cs first second where
  least : ∀ other rest, IsCut cs other rest → first.length ≤ other.length

/-- Without quotes a second path starts with its side. -/
theorem isSecondPath_iff {cs : List Char} (hquote : '\x22' ∉ cs) :
    isSecondPath cs = true ↔ ∃ c rest, cs = 'b' :: '/' :: c :: rest := by
  constructor
  · intro h
    unfold isSecondPath at h
    split at h
    · exact absurd List.mem_cons_self hquote
    · exact ⟨_, _, rfl⟩
    · cases h
  · rintro ⟨c, rest, rfl⟩
    rfl

/-- Where two paths can be cut apart there is a first place to do it. -/
theorem IsCut.exists_isFirstCut {cs first second : List Char} (h : IsCut cs first second) :
    ∃ first' second', IsFirstCut cs first' second' := by
  classical
  have hsome : ∃ n first second, IsCut cs first second ∧ first.length = n := ⟨_, first, second, h, rfl⟩
  obtain ⟨first', second', hcut, hlength⟩ := Nat.find_spec hsome
  refine ⟨first', second', hcut, fun other rest hother => ?_⟩
  rw [hlength]
  exact Nat.find_min' hsome ⟨other, rest, hother, rfl⟩

/-- One character more is taken into the first path, unless a second one starts after it. -/
theorem splitPaths_cons {rest : List Char} (hquote : '\x22' ∉ rest) (taken : List Char) (c : Char) :
    splitPaths taken (c :: rest)
      = if rest.head? = some ' ' ∧ isSecondPath rest.tail = true then
          some ((c :: taken).reverse, rest.tail)
        else splitPaths (c :: taken) rest := by
  cases rest with
  | nil => rfl
  | cons d more =>
      have hd : d ≠ '\x22' := fun heq => hquote (heq ▸ List.mem_cons_self)
      rw [splitPaths]
      · by_cases hspace : d = ' '
        · subst hspace
          by_cases hsecond : isSecondPath more = true
          · simp [hsecond]
          · simp [hsecond]
        · simp [hspace]
      · rintro more' heq
        exact hd (List.cons.inj heq).1

/-- **Two paths are cut apart at the first place where that can be done.** -/
theorem IsFirstCut.splitPaths_eq {cs first second : List Char} (h : IsFirstCut cs first second)
    (hquote : '\x22' ∉ cs) (taken : List Char) :
    splitPaths taken cs = some (taken.reverse ++ first, second) := by
  obtain ⟨⟨rfl, hne, hsecond⟩, hleast⟩ := h
  induction first generalizing taken with
  | nil => exact absurd rfl hne
  | cons c more ih =>
      have hrest : '\x22' ∉ more ++ ' ' :: second := fun hmem => hquote (List.mem_cons_of_mem c hmem)
      rw [List.cons_append, splitPaths_cons hrest]
      cases more with
      | nil =>
          rw [if_pos ⟨rfl, hsecond⟩, List.reverse_cons]
          rfl
      | cons d more =>
          -- a second path right after `c` would be a place to cut before the first one
          rw [if_neg]
          · have hlater : ∀ other rest, IsCut (d :: more ++ ' ' :: second) other rest →
                (d :: more).length ≤ other.length := by
              intro other rest hcut
              have hlonger := hleast (c :: other) rest ⟨congrArg (c :: ·) hcut.text,
                List.cons_ne_nil c other, hcut.opens⟩
              exact Nat.le_of_succ_le_succ hlonger
            rw [ih (c :: taken) (List.cons_ne_nil d more) hrest hlater, List.reverse_cons,
              List.append_assoc]
            rfl
          · rintro ⟨hhead, htail⟩
            obtain rfl : d = ' ' := Option.some.inj hhead
            have hlonger := hleast [c] (more ++ ' ' :: second) ⟨rfl, List.cons_ne_nil c [], htail⟩
            exact absurd (Nat.le_of_succ_le_succ hlonger) (Nat.not_succ_le_zero _)

/-- A cut within the first of two copies of a path is at a ` b/` in it. -/
theorem IsCut.exists_of_lt {path first second : List Char} (hquote : '\x22' ∉ path)
    (h : IsCut (path ++ ' ' :: 'b' :: '/' :: path) first second) (hlt : first.length < path.length) :
    ∃ more, path = first ++ ' ' :: 'b' :: '/' :: more ∧
      second = 'b' :: '/' :: (more ++ ' ' :: 'b' :: '/' :: path) := by
  obtain ⟨htext, -, hopens⟩ := h
  rcases List.append_eq_append_iff.1 htext with ⟨between, rfl, -⟩ | ⟨between, rfl, hbetween⟩
  · exact absurd hlt (by simp)
  cases between with
  | nil => exact absurd hlt (by simp)
  | cons c more =>
      obtain ⟨rfl, rfl⟩ := List.cons.inj hbetween
      have hmore : '\x22' ∉ more := fun hmem => hquote (by simp [hmem])
      have hsecond : '\x22' ∉ more ++ ' ' :: 'b' :: '/' :: (first ++ ' ' :: more) := by
        simp only [List.mem_append, List.mem_cons, not_or] at hquote ⊢
        exact ⟨hmore, by decide, by decide, by decide, hquote⟩
      obtain ⟨_, rest, hstart⟩ := (isSecondPath_iff hsecond).1 hopens
      -- the side of the second path stands in this copy: it holds no space to reach into the next
      cases more with
      | nil => exact absurd (List.cons.inj hstart).1 (by decide)
      | cons d more =>
          obtain ⟨rfl, hstart⟩ := List.cons.inj hstart
          cases more with
          | nil => exact absurd (List.cons.inj hstart).1 (by decide)
          | cons e more =>
              obtain ⟨rfl, -⟩ := List.cons.inj hstart
              exact ⟨more, rfl, rfl⟩

/-! ## The paths on a `diff --git` line -/

/-- A path that is written without quotes and read without loss: it stands on one line, holds no tab, quote
    or backslash, has no blank at either end, and is not the one that stands for no file. -/
structure PlainPath where
  text         : String
  unbroken     : isUnbroken text.toList = true
  ne_nil       : text.toList ≠ []
  no_tab       : '\t' ∉ text.toList
  no_quote     : '\x22' ∉ text.toList
  no_backslash : '\\' ∉ text.toList
  head         : ∀ c ∈ text.toList.head?, isBlank c = false
  last         : ∀ c ∈ text.toList.getLast?, isBlank c = false
  ne_nowhere   : text ≠ nowhere

/-- The two paths are cut apart after the side of the first. -/
theorem gitPaths?_eq (cs : List Char) :
    gitPaths? ('a' :: '/' :: cs)
      = (splitPaths ['/', 'a'] cs).map fun paths => (headerPath paths.1, headerPath paths.2) := rfl

theorem length_strip_le (cs : List Char) : (strip cs).length ≤ cs.length := by
  rw [strip, trimmed, List.length_reverse]
  refine Nat.le_trans (List.length_dropWhile_le _ _) ?_
  rw [List.length_reverse]
  exact List.length_dropWhile_le _ _

theorem length_unquote_le (cs : List Char) : (unquote cs).length ≤ cs.length := by
  rw [unquote]
  split
  · rw [List.length_dropLast, List.length_tail]
    omega
  · exact Nat.le_refl _

/-- What is read of a path is no longer than what is written. -/
theorem length_headerPath_le (raw : List Char) : (headerPath raw).toList.length ≤ raw.length := by
  have hcut : (unquote (strip (raw.takeWhile (· ≠ '\t')))).length ≤ raw.length :=
    Nat.le_trans (length_unquote_le _) (Nat.le_trans (length_strip_le _) (List.takeWhile_prefix _).length_le)
  rw [headerPath]
  generalize unquote (strip (raw.takeWhile (· ≠ '\t'))) = cs at hcut
  by_cases hnowhere : String.ofList cs = nowhere
  · rw [if_pos hnowhere, ← hnowhere, String.toList_ofList]
    exact hcut
  · rw [if_neg hnowhere]
    split
    · simp only [String.toList_ofList, List.length_cons] at hcut ⊢
      omega
    · simp only [String.toList_ofList, List.length_cons] at hcut ⊢
      omega
    · rw [String.toList_ofList]
      exact hcut

namespace PlainPath

variable (p : PlainPath)

/-- A plain path can stand in a header. -/
def header : HeaderPath where
  text := p.text
  proper := by
    simp only [isHeaderPath, Bool.and_eq_true, Bool.not_eq_true', List.contains_eq_mem,
      decide_eq_false_iff_not, List.isEmpty_eq_false_iff, bne_iff_ne, Option.all_eq_true]
    exact ⟨⟨⟨⟨p.unbroken, p.ne_nil⟩, p.no_tab⟩, p.last⟩, p.ne_nowhere⟩

/-- The two copies of the path on the line, without the side of the first. -/
def copies : List Char := p.text.toList ++ ' ' :: 'b' :: '/' :: p.text.toList

theorem no_quote_copies : '\x22' ∉ p.copies := by
  simp only [copies, List.mem_append, List.mem_cons, not_or]
  exact ⟨p.no_quote, by decide, by decide, by decide, p.no_quote⟩

/-- The two copies can be cut apart between them. -/
theorem isCut_copies : IsCut p.copies p.text.toList ('b' :: '/' :: p.text.toList) where
  text := rfl
  ne_nil := p.ne_nil
  opens := by
    cases hpath : p.text.toList with
    | nil => exact absurd hpath p.ne_nil
    | cons c rest => rfl

/-- What is left of a plain path after a ` b/` in it can stand in a header before another copy. -/
theorem exists_headerPath {first more : List Char}
    (hpath : p.text.toList = first ++ ' ' :: 'b' :: '/' :: more) :
    ∃ q : HeaderPath, q.text.toList = more ++ ' ' :: 'b' :: '/' :: p.text.toList := by
  have hmore : isUnbroken more = true := by
    have hunbroken := p.unbroken
    simp only [hpath, isUnbroken_append, isUnbroken_cons, Bool.and_eq_true] at hunbroken
    exact hunbroken.2.2.2.2
  have htab : '\t' ∉ more := fun hmem => p.no_tab (by simp [hpath, hmem])
  refine ⟨⟨String.ofList (more ++ ' ' :: 'b' :: '/' :: p.text.toList), ?_⟩, String.toList_ofList⟩
  simp only [isHeaderPath, String.toList_ofList, Bool.and_eq_true, Bool.not_eq_true',
    List.contains_eq_mem, decide_eq_false_iff_not, bne_iff_ne]
  refine ⟨⟨⟨⟨?_, by simp⟩, ?_⟩, ?_⟩, ?_⟩
  · simp only [isUnbroken_append, isUnbroken_cons, hmore, p.unbroken]
    decide
  · simp only [List.mem_append, List.mem_cons, not_or]
    exact ⟨htab, by decide, by decide, by decide, p.no_tab⟩
  · have hlast := p.last
    cases hp : p.text.toList with
    | nil => exact absurd hp p.ne_nil
    | cons c rest =>
        rw [hp] at hlast
        rw [List.getLast?_append_of_ne_nil more (List.cons_ne_nil _ _), List.getLast?_cons_cons,
          List.getLast?_cons_cons, List.getLast?_cons_cons]
        simpa [Option.all_eq_true] using hlast
  · -- the path that stands for no file holds no space
    intro heq
    have hspace : ' ' ∈ nowhere.toList := by
      rw [← heq, String.toList_ofList]
      simp
    exact absurd hspace (by decide)

/-- **The paths are read off the line where ` b/` stands between the copies only.** -/
theorem gitPaths?_of_not_infix (h : ¬[' ', 'b', '/'] <:+: p.text.toList) :
    gitPaths? ('a' :: '/' :: p.copies) = some (p.text, p.text) := by
  have hfirst : IsFirstCut p.copies p.text.toList ('b' :: '/' :: p.text.toList) := by
    refine ⟨p.isCut_copies, fun other rest hother => ?_⟩
    by_contra hshorter
    obtain ⟨more, hpath, -⟩ := hother.exists_of_lt p.no_quote (Nat.lt_of_not_le hshorter)
    refine h ⟨other, more, ?_⟩
    rw [hpath, List.append_assoc]
    rfl
  rw [gitPaths?_eq, hfirst.splitPaths_eq p.no_quote_copies]
  have ha : headerPath ('a' :: '/' :: p.text.toList) = p.text := headerPath_sided p.header (.inl rfl)
  have hb : headerPath ('b' :: '/' :: p.text.toList) = p.text := headerPath_sided p.header (.inr rfl)
  simp only [Option.map_some, List.reverse_cons, List.reverse_nil, List.nil_append, List.cons_append]
  rw [ha, hb]

/-- **Else the line is cut within the first copy**: the first path is read too short and the second one
    too long. -/
theorem gitPaths?_of_infix (h : [' ', 'b', '/'] <:+: p.text.toList) :
    ∃ old new, gitPaths? ('a' :: '/' :: p.copies) = some (old, new) ∧
      old.toList.length < p.text.toList.length ∧ p.text.toList.length < new.toList.length := by
  obtain ⟨before, after, hpath⟩ := h
  rw [List.append_assoc] at hpath
  have hcut : IsCut p.copies before
      ('b' :: '/' :: (after ++ ' ' :: 'b' :: '/' :: p.text.toList)) := by
    refine ⟨?_, ?_, ?_⟩
    · rw [copies]
      nth_rewrite 1 [← hpath]
      simp
    · rintro rfl
      have hblank := p.head ' ' (by rw [← hpath]; rfl)
      exact absurd hblank (by decide)
    · cases after <;> rfl
  obtain ⟨first, second, hfirst⟩ := hcut.exists_isFirstCut
  have hbefore : before.length < p.text.toList.length := by
    rw [← hpath]
    simp
  obtain ⟨more, hmore, rfl⟩ := hfirst.exists_of_lt p.no_quote
    (Nat.lt_of_le_of_lt (hfirst.least _ _ hcut) hbefore)
  obtain ⟨q, hq⟩ := p.exists_headerPath hmore
  have hlength : p.text.toList.length = first.length + 3 + more.length := by
    rw [hmore]
    simp
    omega
  refine ⟨headerPath ('a' :: '/' :: first), q.text, ?_, ?_, ?_⟩
  · rw [gitPaths?_eq, hfirst.splitPaths_eq p.no_quote_copies, Option.map_some, ← hq,
      headerPath_sided q (.inr rfl)]
    rfl
  · have hshort := length_headerPath_le ('a' :: '/' :: first)
    simp only [List.length_cons] at hshort
    omega
  · rw [hq]
    simp
    omega

end PlainPath

/-! ## Entries -/

/-- What the lines after the `diff --git` line say where no path lines and no hunks follow. -/
inductive BareChange where
  | modes (old new : LineText)
  | binary (index files : LineText)
  | created (mode : LineText) (index? : Option LineText)
  | deleted (mode : LineText) (index? : Option LineText)

namespace BareChange

/-- The line that names the contents on both sides, where it is written. -/
def indexLines (index? : Option LineText) : List (List Char) :=
  index?.toList.map fun index => "index ".toList ++ index.text.toList

/-- The lines after the `diff --git` line. -/
def lines : BareChange → List (List Char)
  | modes old new => ["old mode ".toList ++ old.text.toList, "new mode ".toList ++ new.text.toList]
  | binary index files =>
    ["index ".toList ++ index.text.toList,
      "Binary files ".toList ++ (files.text.toList ++ " differ".toList)]
  | created mode index? => ("new file mode ".toList ++ mode.text.toList) :: indexLines index?
  | deleted mode index? => ("deleted file mode ".toList ++ mode.text.toList) :: indexLines index?

/-- What happened to the file. -/
def status : BareChange → ChangeStatus
  | modes _ _ | binary _ _ => .modified
  | created _ _ => .added
  | deleted _ _ => .deleted

/-- What the lines say of an entry. -/
def mark (e : Entry) : BareChange → Entry
  | modes _ _ | binary _ _ => e
  | created _ _ => { e with isNew := true }
  | deleted _ _ => { e with isDeleted := true }

/-- The lines mark the open entry and do nothing else. -/
theorem readLines_opened (e : Entry) (change : BareChange) :
    readLines (opened e) change.lines = .ok (opened (change.mark e)) := by
  have hindex : ∀ (e : Entry) (index? : Option LineText),
      readLines (opened e) (indexLines index?) = .ok (opened e) := by
    intro e index?
    cases index? with
    | none => rfl
    | some index => rfl
  cases change with
  | modes old new => rfl
  | binary index files => rfl
  | created mode index? =>
      rw [lines, readLines_opened_created, hindex]
      rfl
  | deleted mode index? =>
      rw [lines, readLines_opened_deleted, hindex]
      rfl

/-- An entry that names one path on both sides is read as the change of that file. -/
theorem change_mark (p : HeaderPath) (change : BareChange) :
    (change.mark (.named (some (p.text, p.text)))).change
      = some ⟨p.text, some p.text, change.status, []⟩ := by
  cases change with
  | modes _ _ | binary _ _ | created _ _ | deleted _ _ =>
      simp only [Entry.change, mark, Entry.named, Option.map_some, realPath_text, firstPath_text,
        filter_text]
      simp [p.ne_nowhere, status]

/-- The lines are unbroken. -/
theorem isUnbroken_of_mem_lines {change : BareChange} {line : List Char} (h : line ∈ change.lines) :
    isUnbroken line = true := by
  have hindex : ∀ index? : Option LineText, line ∈ indexLines index? → isUnbroken line = true := by
    intro index? hline
    obtain ⟨index, -, rfl⟩ := List.mem_map.1 hline
    rw [isUnbroken_append, index.unbroken]
    decide
  cases change with
  | modes old new =>
      simp only [lines, List.mem_cons, List.not_mem_nil, or_false] at h
      rcases h with rfl | rfl
      · rw [isUnbroken_append, old.unbroken]
        decide
      · rw [isUnbroken_append, new.unbroken]
        decide
  | binary index files =>
      simp only [lines, List.mem_cons, List.not_mem_nil, or_false] at h
      rcases h with rfl | rfl
      · rw [isUnbroken_append, index.unbroken]
        decide
      · rw [isUnbroken_append, isUnbroken_append, files.unbroken]
        decide
  | created mode index? | deleted mode index? =>
      rcases List.mem_cons.1 h with rfl | h
      · rw [isUnbroken_append, mode.unbroken]
        decide
      · exact hindex index? h

end BareChange

/-- The entry of a file without path lines and hunks. -/
structure BareEntry where
  path   : PlainPath
  change : BareChange

namespace BareEntry

variable (b : BareEntry)

/-- The lines of the entry. -/
def print : List (List Char) :=
  ("diff --git ".toList ++ 'a' :: '/' :: b.path.copies) :: b.change.lines

/-- The text of the entry. -/
def text : String := String.ofList (b.print.flatMap (· ++ ['\n']))

/-- The text is read as the entry that its lines describe. -/
theorem read_text : read b.text
    = .ok (opened (b.change.mark (.named (gitPaths? ('a' :: '/' :: b.path.copies))))).result := by
  have hpath := b.path.unbroken
  have hunbroken : ∀ line ∈ b.print, isUnbroken line = true := by
    intro line hline
    rcases List.mem_cons.1 hline with rfl | hline
    · simp only [PlainPath.copies, isUnbroken_append, isUnbroken_cons, hpath]
      decide
    · exact BareChange.isUnbroken_of_mem_lines hline
  rw [read_eq_resultOf, text, String.toList_ofList, lines_flatMap hunbroken, resultOf, print,
    readLines_gitPaths, BareChange.readLines_opened]
  rfl

/-- **The path is kept where ` b/` stands between its copies only**: the file is read as changed, and
    nothing else. -/
theorem read_of_not_infix (h : ¬[' ', 'b', '/'] <:+: b.path.text.toList) :
    read b.text = .ok ⟨[⟨b.path.text, some b.path.text, b.change.status, []⟩], ⟨0, 0, 1⟩⟩ := by
  rw [read_text, b.path.gitPaths?_of_not_infix h]
  have hchange := b.change.change_mark b.path.header
  simp only [Progress.result, Progress.close, Progress.settle, opened, Option.bind_some]
  rw [show b.path.text = b.path.header.text from rfl, hchange]
  rfl

end BareEntry

/-- Whether a diff has one file, with that path and status, and without hunks. -/
def IsSole (d : Diff) (path : String) (status : ChangeStatus) : Prop :=
  ∃ f, d.files = [f] ∧ f.path = path ∧ f.status = status ∧ f.hunks = []

/-- **An entry without path lines keeps its path exactly if the path holds no ` b/`.** Whatever is said of
    the file (its mode, that it is binary, that it comes or goes without a line), the entry is then read as
    that change of that file; with a ` b/` in it another path is read. -/
theorem read_bare_iff (b : BareEntry) :
    (∃ d, read b.text = .ok d ∧ IsSole d b.path.text b.change.status) ↔
      ¬" b/".toList <:+: b.path.text.toList := by
  constructor
  · rintro ⟨d, hread, f, hfile, hpath, -, -⟩ hinfix
    obtain ⟨old, new, hpaths, hold, hnew⟩ := b.path.gitPaths?_of_infix hinfix
    rw [b.read_text, hpaths] at hread
    obtain rfl := Except.ok.inj hread
    have hentry : (b.change.mark (.named (some (old, new)))).change = some f := by
      simp only [Progress.result, Progress.close, Progress.settle, opened, Option.bind_some,
        List.nil_append] at hfile
      exact Option.toList_eq_singleton_iff.1 hfile
    have hnames : (b.change.mark (.named (some (old, new)))).oldPath = some old ∧
        (b.change.mark (.named (some (old, new)))).newPath = some new := by
      cases b.change <;> exact ⟨rfl, rfl⟩
    have hreal : ∀ other : String, realPath (some other) = some b.path.text → other = b.path.text := by
      intro other hother
      rw [realPath] at hother
      split at hother
      · cases hother
      · exact Option.some.inj hother
    -- one path is shorter than the right one and the other is longer
    rcases (path_of_change hentry).2 with hread | hread
    · rw [hnames.1, hpath] at hread
      rw [hreal old hread] at hold
      exact absurd hold (Nat.lt_irrefl _)
    · rw [hnames.2, hpath] at hread
      rw [hreal new hread] at hnew
      exact absurd hnew (Nat.lt_irrefl _)
  · intro hinfix
    exact ⟨_, b.read_of_not_infix hinfix, _, rfl, rfl, rfl, rfl⟩

-- a space alone does no harm
example : read "diff --git a/x y b/x y\nold mode 100644\nnew mode 100755\n"
    = .ok ⟨[⟨"x y", some "x y", .modified, []⟩], ⟨0, 0, 1⟩⟩ := by decide +kernel

/-- The mode of `x b/y` changes, and the line is cut within the first copy of its path: what is read is a
    rename of another file. -/
theorem read_bare_cutEarly :
    ∃ d, read "diff --git a/x b/y b/x b/y\nold mode 100644\nnew mode 100755\n" = .ok d ∧
      d.files = [⟨"y b/x b/y", some "x", .renamed, []⟩] ∧ ¬IsSole d "x b/y" .modified := by
  refine ⟨⟨[⟨"y b/x b/y", some "x", .renamed, []⟩], ⟨0, 0, 1⟩⟩, by decide +kernel, rfl, ?_⟩
  rintro ⟨f, hfile, hpath, -, -⟩
  obtain rfl := List.singleton_inj.1 hfile
  exact absurd hpath (by decide)

end PatchReview.Diff
