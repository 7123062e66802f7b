import Mathlib
import PatchReview.Comment.Verification
import PatchReview.Proofs.Tree.Lines
import PatchReview.Proofs.Tree.Shape

/-!
# What is read lies below the root

A path has lines where it ends at the root or below it, and the test for that looks at names only. It is
enough where the walk ends at a location: then every link has been followed (`isReal_of_walk`), so
opening that location opens the file that stands there (`follow_isReal`). Such files lie below the
root, and those that stand elsewhere show in nothing that is read (`lines_eq_of_sameBelow`).

A walk that comes upon a circle takes the rest of the path by its text. Links may then stand where it
ends, and they are followed when the file is opened: this is the only way out
(`meetsCircle_of_leadsOut`), and it is one (`lines_pastLoop`).
-/

namespace PatchReview.Tree

variable {t t' : Tree} {root : Location}

/-! ## Locations with no link on the way -/

/-- Whether the names of a location lead to it by themselves: each of them says something and does not
    lead back, and no link stands on the way. -/
structure IsReal (t : Tree) (l : Location) : Prop where
  named    : ∀ name ∈ l, Path.isIdle name = false ∧ name ≠ ".."
  linkless : ∀ front target, front <+: l → t.at? front ≠ some (.link target)

theorem isReal_top : t.IsReal [] where
  named := by
    intro name hname
    cases hname
  linkless := by
    intro front target hfront hlink
    rw [List.prefix_nil.1 hfront] at hlink
    cases hlink

theorem IsReal.of_prefix {front l : Location} (h : t.IsReal l) (hfront : front <+: l) :
    t.IsReal front where
  named := by
    intro name hname
    exact h.named name (hfront.subset hname)
  linkless := by
    intro front' target hfront'
    exact h.linkless front' target (hfront'.trans hfront)

theorem IsReal.concat {l : Location} {name : String} (h : t.IsReal l)
    (hidle : ¬Path.isIdle name = true) (hup : name ≠ "..")
    (hlink : ∀ target, t.at? (l ++ [name]) ≠ some (.link target)) : t.IsReal (l ++ [name]) where
  named := by
    intro other hother
    rcases List.mem_append.1 hother with hin | hlast
    · exact h.named other hin
    · obtain rfl := List.mem_singleton.1 hlast
      exact ⟨by simpa using hidle, hup⟩
  linkless := by
    intro front target hfront
    rcases List.prefix_concat_iff.1 hfront with rfl | hshort
    · exact hlink target
    · exact h.linkless front target hshort

/-- The text of a link that stands in a directory is followed from there, or from the top. -/
theorem isReal_linkBase {here : Location} (h : t.IsReal here) (name target : String) :
    t.IsReal (linkBase (here ++ [name]) target) := by
  rw [linkBase, List.dropLast_concat]
  split
  · exact h
  · exact isReal_top

theorem isReal_base (h : t.IsReal root) (p : Path) : t.IsReal (base root p) := by
  rw [base]
  split
  · exact h
  · exact isReal_top

/-- A directory is at a real location. -/
theorem isReal_of_isDirectory {l : Location} (h : t.isDirectory l = true) : t.IsReal l where
  named := by
    intro name hname
    have hisName := List.all_eq_true.1 (isName_of_isDirectory h) name hname
    simp only [Path.isName, Path.isSingle, Bool.and_eq_true, Bool.not_eq_true', bne_iff_ne] at hisName
    exact ⟨hisName.1.1.1, hisName.1.2⟩
  linkless := by
    rintro front target ⟨more, rfl⟩ hlink
    have hfront := isDirectory_of_append h
    rw [isDirectory, decide_eq_true_eq, hlink] at hfront
    cases hfront

/-- **A walk that ends at a location has followed every link.** -/
theorem isReal_of_walk {links : List Location} {here l : Location} {names : List String}
    (hhere : t.IsReal here) (h : t.walk links here names = .reached l) : t.IsReal l := by
  fun_induction Tree.walk t links here names generalizing l with
  | case1 links here =>
      cases h
      exact hhere
  | case2 links here name rest hidle ih => exact ih hhere h
  | case3 links here rest hidle ih =>
      exact ih (hhere.of_prefix (List.dropLast_prefix here)) h
  | case5 links here name rest hidle hup hzero target hlink hin there hthere ihlink ihrest =>
      -- where the link leads is real, and the walk goes on from there
      have hreal := ihlink (isReal_linkBase hhere name target) hthere
      exact ihrest hreal h
  | case9 links here name rest hidle hup hzero hnone ih =>
      exact ih (hhere.concat hidle hup hnone) h
  | case4 | case6 | case7 | case8 => cases h

/-- So has opening a file. -/
theorem isReal_of_follow {links : List Location} {here l : Location} {names : List String}
    (hhere : t.IsReal here) (h : t.follow links here names = .ok l) : t.IsReal l := by
  fun_induction Tree.follow t links here names generalizing l with
  | case1 links here =>
      cases h
      exact hhere
  | case2 links here name rest hdir hidle ih => exact ih hhere h
  | case3 links here rest hdir hidle ih =>
      exact ih (hhere.of_prefix (List.dropLast_prefix here)) h
  | case4 links here name rest hdir hidle hup target hlink hin there hthere ihlink ihrest =>
      have hreal := ihlink (isReal_linkBase hhere name target) hthere
      exact ihrest hreal h
  | case7 links here name rest hdir hidle hup e hplain he ih =>
      refine ih (hhere.concat hidle hup ?_) h
      intro target hlink
      exact hplain target (Option.some.inj (he.symm.trans hlink))
  | case5 | case6 | case8 | case9 => cases h

/-- **A real location leads to itself, or to nothing.** -/
theorem follow_isReal (links : List Location) {here names : Location} (h : t.IsReal (here ++ names)) :
    t.follow links here names = .ok (here ++ names) ∨ t.follow links here names = .error .absent := by
  induction names generalizing here with
  | nil => exact .inl (by rw [follow, List.append_nil])
  | cons name rest ih =>
      have hnext : here ++ name :: rest = here ++ [name] ++ rest := by simp
      obtain ⟨hidle, hup⟩ := h.named name (by simp)
      have hlink := h.linkless (here ++ [name])
      rw [follow]
      by_cases hdir : t.isDirectory here = true
      · rw [if_pos hdir, if_neg (by simp [hidle]), if_neg hup]
        cases hat : t.at? (here ++ [name]) with
        | none => exact .inr rfl
        | some e =>
            cases e with
            | link target => exact absurd hat (hlink target ⟨rest, hnext.symm⟩)
            | directory | file content =>
                rw [hnext]
                exact ih (hnext ▸ h)
      · rw [if_neg hdir]
        exact .inr rfl

/-! ## What is read -/

/-- Whether reading a path below a root opens a file, and where that stands, all links followed. -/
def Reads (t : Tree) (root : Location) (path : String) (place : Location) (content : ByteArray) : Prop :=
  ∃ l, t.locate root path = .ok (some l) ∧ t.follow t.links [] l = .ok place ∧
    t.at? place = some (.file content)

theorem opened?_eq_some_iff {l : Location} {e : Entry} :
    t.opened? l = some e ↔ ∃ place, t.follow t.links [] l = .ok place ∧ t.at? place = some e := by
  rw [opened?]
  cases t.follow t.links [] l <;> simp

/-- **The lines of a path are those of the file that is opened.** -/
theorem lines_eq_some_iff {path : String} {ls : List String} :
    t.lines root path = .ok (some ls) ↔
      ∃ place content, t.Reads root path place content ∧ linesOfBytes content = ls := by
  rw [lines, bind_eq_ok_iff]
  constructor
  · rintro ⟨l?, hlocate, h⟩
    cases l? with
    | none => cases Except.ok.inj h
    | some l =>
        cases hopen : t.opened? l with
        | none => simp [hopen, pure, Except.pure] at h
        | some e =>
            cases e with
            | directory | link target => simp [hopen, pure, Except.pure] at h
            | file content =>
                obtain ⟨place, hfollow, hplace⟩ := opened?_eq_some_iff.1 hopen
                simp only [hopen] at h
                exact ⟨place, content, ⟨l, hlocate, hfollow, hplace⟩,
                  Option.some.inj (Except.ok.inj h)⟩
  · rintro ⟨place, content, ⟨l, hlocate, hfollow, hplace⟩, rfl⟩
    refine ⟨some l, hlocate, ?_⟩
    simp only [opened?_eq_some_iff.2 ⟨place, hfollow, hplace⟩]
    rfl

/-- A path leads to the root or below it where it ends at the top at such a location. -/
theorem locate_eq_some_iff {path : String} {l : Location} :
    t.locate root path = .ok (some l) ↔
      t.endOf root (.ofText path) = .ok ⟨.top, l⟩ ∧ root <+: l := by
  rw [locate, bind_eq_ok_iff]
  constructor
  · rintro ⟨⟨anchor, names⟩, hend, h⟩
    by_cases hbelow : anchor = .top ∧ root <+: names
    · rw [if_pos hbelow] at h
      obtain rfl := Option.some.inj (Except.ok.inj h)
      exact ⟨hbelow.1 ▸ hend, hbelow.2⟩
    · rw [if_neg hbelow] at h
      cases Except.ok.inj h
  · rintro ⟨hend, hbelow⟩
    exact ⟨_, hend, by rw [if_pos ⟨rfl, hbelow⟩]; rfl⟩

/-- Whether reading a path below a root opens a file that stands elsewhere. -/
def LeadsOut (t : Tree) (root : Location) (path : String) : Prop :=
  ∃ place content, t.Reads root path place content ∧ ¬root <+: place

/-- Whether a path comes upon a link that leads in a circle. -/
def MeetsCircle (t : Tree) (root : Location) (path : String) : Prop :=
  ∃ p, t.walk t.links (base root (.ofText path)) (Path.ofText path).names = .circling p

theorem isReal_of_reads {path : String} {place : Location} {content : ByteArray}
    (h : t.Reads root path place content) : t.IsReal place := by
  obtain ⟨l, -, hfollow, -⟩ := h
  exact isReal_of_follow isReal_top hfollow

/-- **Only a path that comes upon a circle leads out.** -/
theorem meetsCircle_of_leadsOut (hroot : t.IsReal root) {path : String} (h : t.LeadsOut root path) :
    t.MeetsCircle root path := by
  obtain ⟨place, content, ⟨l, hlocate, hfollow, -⟩, hout⟩ := h
  obtain ⟨hend, hbelow⟩ := locate_eq_some_iff.1 hlocate
  rw [MeetsCircle]
  rw [endOf] at hend
  cases hwalk : t.walk t.links (base root (.ofText path)) (Path.ofText path).names with
  | circling p => exact ⟨p, rfl⟩
  | zeroCharacter =>
      rw [hwalk] at hend
      cases hend
  | reached there =>
      -- the walk followed every link, so the file stands where the walk ended
      have hreal : t.IsReal there := isReal_of_walk (isReal_base hroot _) hwalk
      have hthere : there = l := by
        rw [hwalk] at hend
        simp only [Walk.path?] at hend
        split at hend
        · cases hend
        · exact congrArg Path.names (Except.ok.inj hend)
      subst hthere
      rcases follow_isReal t.links (show t.IsReal ([] ++ there) from hreal) with hself | hnothing
      · obtain rfl := Except.ok.inj (hself.symm.trans hfollow)
        exact absurd hbelow hout
      · cases hnothing.symm.trans hfollow

/-! ## Trees that differ elsewhere -/

/-- Whether two trees differ at most in what the files that stand elsewhere than below a root hold. -/
structure SameBelow (t : Tree) (root : Location) (t' : Tree) : Prop where
  shape : t.SameShape t'
  below : ∀ l, root <+: l → t'.at? l = t.at? l

/-- In trees of one shape paths open files at the same places. -/
theorem reads_congr (hshape : t.SameShape t') {path : String}
    {place : Location} {content content' : ByteArray} (h : t.Reads root path place content)
    (hplace : t'.at? place = some (.file content')) : t'.Reads root path place content' := by
  obtain ⟨l, hlocate, hfollow, -⟩ := h
  refine ⟨l, (locate_congr hshape root path).trans hlocate, ?_, hplace⟩
  exact (follow_congr hshape (links_perm hshape) [] l).trans hfollow

/-- **A path that does not lead out has the same lines**, whatever stands elsewhere. -/
theorem lines_eq_of_sameBelow (h : t.SameBelow root t') {path : String}
    (hin : ¬t.LeadsOut root path) : t'.lines root path = t.lines root path := by
  rw [lines, lines, locate_congr h.shape]
  cases hlocate : t.locate root path with
  | error fault => rfl
  | ok l? =>
      cases l? with
      | none => rfl
      | some l =>
          have hopen : t'.opened? l = t.opened? l := by
            rw [opened?, opened?, follow_congr h.shape (links_perm h.shape)]
            cases hfollow : t.follow t.links [] l with
            | error e => rfl
            | ok place =>
                by_cases hbelow : root <+: place
                · exact h.below place hbelow
                · -- no file that is read stands elsewhere
                  refine (h.shape place).eq_of_ne_file ?_
                  intro content hfile
                  exact hin ⟨place, content, ⟨l, hlocate, hfollow, hfile⟩, hbelow⟩
          simp only [bind, Except.bind, hopen]

/-! ## A tree that differs in one file -/

/-- New content of a file that stands elsewhere changes nothing below the root. -/
theorem sameBelow_refill {l : Location} {content : ByteArray} (content' : ByteArray)
    (hfile : t.at? l = some (.file content)) (hout : ¬root <+: l) :
    t.SameBelow root (t.refill l content') where
  shape := sameShape_refill content' hfile
  below := by
    intro k hbelow
    refine at?_refill_of_ne ?_
    rintro rfl
    exact hout hbelow

theorem exists_linesOfBytes_ne (ls : List String) : ∃ content, linesOfBytes content ≠ ls := by
  have hempty : linesOfBytes ⟨#[]⟩ = [""] := by decide +kernel
  have hletter : linesOfBytes ⟨#[97]⟩ = ["a"] := by decide +kernel
  by_cases h : ls = [""]
  · exact ⟨⟨#[97]⟩, by rw [hletter, h]; decide⟩
  · exact ⟨⟨#[]⟩, by rw [hempty]; exact Ne.symm h⟩

/-- Where a path leads out, its lines are those of a file that stands elsewhere. -/
theorem exists_lines_ne_of_leadsOut {path : String} (h : t.LeadsOut root path) :
    ∃ t', t.SameBelow root t' ∧ t'.lines root path ≠ t.lines root path := by
  obtain ⟨place, content, hreads, hout⟩ := h
  obtain ⟨l, -, -, hfile⟩ := id hreads
  obtain ⟨content', hcontent'⟩ := exists_linesOfBytes_ne (linesOfBytes content)
  have hsame : t.SameBelow root (t.refill place content') := sameBelow_refill content' hfile hout
  have hreads' : (t.refill place content').Reads root path place content' :=
    reads_congr hsame.shape hreads (at?_refill_self hfile)
  refine ⟨_, hsame, ?_⟩
  rw [lines_eq_some_iff.2 ⟨place, content, hreads, rfl⟩,
    lines_eq_some_iff.2 ⟨place, content', hreads', rfl⟩]
  intro heq
  exact hcontent' (Option.some.inj (Except.ok.inj heq))

/-! ## Everything that reads lines -/

theorem shelf_congr {paths : List String}
    (h : ∀ path ∈ paths, t'.lines root path = t.lines root path) :
    t'.shelf root paths = t.shelf root paths := by
  induction paths with
  | nil => rfl
  | cons path rest ih =>
      obtain ⟨hpath, hrest⟩ := List.forall_mem_cons.1 h
      rw [shelf_cons, shelf_cons, hpath, ih hrest]

theorem load_congr (loaded : LoadedFiles) {files : List String}
    (h : ∀ file ∈ files, t'.lines root (Path.normalized file) = t.lines root (Path.normalized file)) :
    LoadedFiles.load t' root loaded files = LoadedFiles.load t root loaded files := by
  induction files generalizing loaded with
  | nil => rfl
  | cons file rest ih =>
      obtain ⟨hfile, hrest⟩ := List.forall_mem_cons.1 h
      simp only [LoadedFiles.load, hfile, ih _ hrest]

theorem verdict_congr (v : Verifier) (r : Number.Rounding) {comments : List Comment}
    (h : ∀ path ∈ v.filesNeeded comments, t'.lines root path = t.lines root path) :
    v.verdict r t' root comments = v.verdict r t root comments := by
  rw [Verifier.verdict, Verifier.verdict, shelf_congr h]

theorem reads_unique {path : String} {place place' : Location} {content content' : ByteArray}
    (h : t.Reads root path place content) (h' : t.Reads root path place' content') :
    place' = place := by
  obtain ⟨l, hlocate, hfollow, -⟩ := h
  obtain ⟨l', hlocate', hfollow', -⟩ := h'
  obtain rfl := Option.some.inj (Except.ok.inj (hlocate.symm.trans hlocate'))
  exact Except.ok.inj (hfollow'.symm.trans hfollow)

/-- **What is read lies below the root**, unless a path leads out past a circle. Lines are those of a
    file at a real location, which lies below the root exactly if the path does not lead out; only paths
    that come upon a circle do; and a path leads out exactly if files that stand elsewhere show in its
    lines. Where none of the paths that matter leads out, verdicts and loaded files do not show them. -/
theorem lines_confined (hroot : t.IsReal root) :
    (∀ path ls, t.lines root path = .ok (some ls) →
        ∃ place content, t.Reads root path place content ∧ linesOfBytes content = ls ∧
          t.IsReal place ∧ (root <+: place ↔ ¬t.LeadsOut root path)) ∧
      (∀ path, t.LeadsOut root path → t.MeetsCircle root path) ∧
      (∀ path, (∀ t', t.SameBelow root t' → t'.lines root path = t.lines root path) ↔
        ¬t.LeadsOut root path) ∧
      ∀ t', t.SameBelow root t' →
        (∀ (v : Verifier) (r : Number.Rounding) (comments : List Comment),
          (∀ path ∈ v.filesNeeded comments, ¬t.LeadsOut root path) →
            v.verdict r t' root comments = v.verdict r t root comments) ∧
        ∀ (loaded : LoadedFiles) (files : List String),
          (∀ file ∈ files, ¬t.LeadsOut root (Path.normalized file)) →
            LoadedFiles.load t' root loaded files = LoadedFiles.load t root loaded files := by
  refine ⟨?_, ?_, ?_, ?_⟩
  · intro path ls hlines
    obtain ⟨place, content, hreads, hls⟩ := lines_eq_some_iff.1 hlines
    refine ⟨place, content, hreads, hls, isReal_of_reads hreads, ?_⟩
    constructor
    · rintro hbelow ⟨place', content', hreads', hout⟩
      rw [reads_unique hreads hreads'] at hout
      exact hout hbelow
    · intro hin
      by_contra hout
      exact hin ⟨place, content, hreads, hout⟩
  · intro path hleads
    exact meetsCircle_of_leadsOut hroot hleads
  · intro path
    constructor
    · intro h hleads
      obtain ⟨t', hsame, hlines⟩ := exists_lines_ne_of_leadsOut hleads
      exact hlines (h t' hsame)
    · intro hin t' hsame
      exact lines_eq_of_sameBelow hsame hin
  · intro t' hsame
    constructor
    · intro v r comments hin
      refine verdict_congr v r ?_
      intro path hpath
      exact lines_eq_of_sameBelow hsame (hin path hpath)
    · intro loaded files hin
      refine load_congr loaded ?_
      intro file hfile
      exact lines_eq_of_sameBelow hsame (hin file hfile)

/-- A root with a link to itself and one to a file that stands beside the root. -/
def besideSecret : Tree :=
  (((Tree.empty.write ["secret"] ⟨#[97]⟩).addDirectory ["repo"]).add ["repo", "loop"]
    (.link "loop")).add ["repo", "link"] (.link "../secret")

/-- The link beyond the circle is not followed until the file is opened. -/
theorem reads_besideSecret :
    besideSecret.Reads ["repo"] "loop/../link" ["secret"] ⟨#[97]⟩ :=
  ⟨["repo", "link"], by cbv, by cbv, by cbv⟩

theorem leadsOut_besideSecret : besideSecret.LeadsOut ["repo"] "loop/../link" :=
  ⟨["secret"], _, reads_besideSecret, by decide⟩

theorem isReal_besideSecret : besideSecret.IsReal ["repo"] :=
  isReal_of_isDirectory (by cbv)

/-- The path that leads out comes upon the circle. -/
theorem lines_confined_besideSecret :
    besideSecret.IsReal ["repo"] ∧ besideSecret.LeadsOut ["repo"] "loop/../link" ∧
      besideSecret.MeetsCircle ["repo"] "loop/../link" :=
  ⟨isReal_besideSecret, leadsOut_besideSecret,
    (lines_confined isReal_besideSecret).2.1 _ leadsOut_besideSecret⟩

/-- The lines of a file that stands beside the root are read, and they change with that file. -/
theorem lines_pastLoop :
    besideSecret.IsReal ["repo"] ∧
      besideSecret.lines ["repo"] "loop/../link" = .ok (some ["a"]) ∧
      besideSecret.Reads ["repo"] "loop/../link" ["secret"] ⟨#[97]⟩ ∧ ¬["repo"] <+: ["secret"] ∧
      besideSecret.SameBelow ["repo"] (besideSecret.refill ["secret"] ⟨#[98]⟩) ∧
      (besideSecret.refill ["secret"] ⟨#[98]⟩).lines ["repo"] "loop/../link" = .ok (some ["b"]) := by
  have hfile : besideSecret.at? ["secret"] = some (.file ⟨#[97]⟩) := by cbv
  have hsame : besideSecret.SameBelow ["repo"] (besideSecret.refill ["secret"] ⟨#[98]⟩) :=
    sameBelow_refill _ hfile (by decide)
  have hreads : (besideSecret.refill ["secret"] ⟨#[98]⟩).Reads ["repo"] "loop/../link" ["secret"]
      ⟨#[98]⟩ := reads_congr hsame.shape reads_besideSecret (at?_refill_self hfile)
  exact ⟨isReal_besideSecret,
    lines_eq_some_iff.2 ⟨_, _, reads_besideSecret, by decide +kernel⟩, reads_besideSecret, by decide,
    hsame, lines_eq_some_iff.2 ⟨_, _, hreads, by decide +kernel⟩⟩

end PatchReview.Tree
