import Mathlib
import PatchReview.Proofs.Comment.Relocation

/-!
# Spellings of files

Comments, candidate files and known definitions name their files by paths, and every path has many
spellings. Verification looks at a file by its normal spelling only: where it reads files, where it asks
what a file defines, where it compares the places of comments, and where it looks for better ones. So
other spellings get the same verdict, but for the spelling of comments that are answered where they were
found and of the places at which comments were found (`verdict_respelled`).

The proof goes through verification step by step. What is said of one comment is said of the other
(`reasons_respelled`), hence the comments are decided alike one by one (`exists_decisions`), and what
becomes of them afterwards is alike, too (`misplaced?_respelled`, `relocation_respelled`).
-/

namespace PatchReview

open PatchReview.Number (Rounding)

/-! ## Other spellings -/

/-- Whether two texts are spellings of one path. -/
def Path.IsSpelling (text other : String) : Prop := normalized other = normalized text

/-- Whether a location in a file is another, the file spelled otherwise. -/
def CodeLocation.IsRespelled (l other : CodeLocation) : Prop :=
  Path.IsSpelling l.file other.file ∧ other.line = l.line

/-- Whether a comment is another, its file spelled otherwise. -/
def CommentOf.IsRespelled {Remark : Type} (c other : CommentOf Remark) : Prop :=
  ∃ file, Path.IsSpelling c.file file ∧ other = { c with file := file }

theorem CommentOf.IsRespelled.path_eq {Remark : Type} {c other : CommentOf Remark}
    (h : c.IsRespelled other) : other.path = c.path := by
  obtain ⟨file, hfile, rfl⟩ := h
  exact hfile

/-- Whether a comment was dropped as another, its file spelled otherwise. -/
def Dropped.IsRespelled (x other : Dropped) : Prop :=
  x.comment.IsRespelled other.comment ∧ other.reasons = x.reasons

/-- Whether a comment is misplaced as another, its file spelled otherwise. -/
structure Misplaced.IsRespelled (x other : Misplaced) : Prop where
  comment   : x.comment.IsRespelled other.comment
  found     : x.found.IsRespelled other.found
  suggested : other.suggested = x.suggested
  evidence  : other.evidence = x.evidence

/-- The options with other names of files. -/
def VerifyOptions.naming (o : VerifyOptions) (definitions : List (String × List String))
    (candidates : List String) : VerifyOptions :=
  { o with definitions := definitions, candidates := candidates }

/-- The verifier with other names of files in its options. -/
def Verifier.naming (v : Verifier) (definitions : List (String × List String))
    (candidates : List String) : Verifier :=
  { v with options := v.options.naming definitions candidates }

/-- Whether two answers keep the same comments and move the same ones to the same places. Where a
    comment is moved both give the same comment; else its file may be spelled otherwise. -/
inductive KeepAlike : List Comment → List Moved → List Comment → List Moved → Prop where
  | nil : KeepAlike [] [] [] []
  | stays {c c' : Comment} {kept kept' : List Comment} {moved moved' : List Moved}
      (hc : c.IsRespelled c') (hrest : KeepAlike kept moved kept' moved') :
      KeepAlike (c :: kept) moved (c' :: kept') moved'
  | moves {c : Comment} {found found' : CodeLocation} {confidence : Rat}
      {kept kept' : List Comment} {moved moved' : List Moved} (hfound : found.IsRespelled found')
      (hrest : KeepAlike kept moved kept' moved') :
      KeepAlike (c :: kept) (⟨c, found, confidence⟩ :: moved)
        (c :: kept') (⟨c, found', confidence⟩ :: moved')

/-- Whether two verdicts are the same but for the spelling of files of comments that were not moved and
    of locations at which comments were found. -/
structure Verdict.IsRespelled (d other : Verdict) : Prop where
  kept      : KeepAlike d.kept d.moved other.kept other.moved
  dropped   : List.Forall₂ Dropped.IsRespelled d.dropped other.dropped
  misplaced : List.Forall₂ Misplaced.IsRespelled d.misplaced other.misplaced

/-- Lists whose items correspond have an item with the same property. -/
theorem any_eq_of_forall₂ {α β : Type} {R : α → β → Prop} {p : α → Bool} {q : β → Bool}
    {as : List α} {bs : List β} (h : List.Forall₂ R as bs) (hsame : ∀ a b, R a b → q b = p a) :
    bs.any q = as.any p := by
  induction h with
  | nil => rfl
  | cons hab _ ih => rw [List.any_cons, List.any_cons, ih, hsame _ _ hab]

/-- Lists whose items correspond have the same values, if corresponding items have. -/
theorem map_eq_of_forall₂ {α β γ : Type} {R : α → β → Prop} {f : α → γ} {g : β → γ}
    {as : List α} {bs : List β} (h : List.Forall₂ R as bs) (hsame : ∀ a b, R a b → g b = f a) :
    bs.map g = as.map f := by
  induction h with
  | nil => rfl
  | cons hab _ ih => rw [List.map_cons, List.map_cons, ih, hsame _ _ hab]

namespace Verifier

variable {v : Verifier} {r : Rounding} {definitions : List (String × List String)}
  {candidates : List String}

/-- Options with other names of files have the same expressions to read. -/
theorem ofOptions_naming (o : VerifyOptions) :
    ofOptions (o.naming definitions candidates)
      = (ofOptions o).map (·.naming definitions candidates) := by
  rw [ofOptions, ofOptions]
  show (o.generic.mapM _ >>= _) = _
  cases o.generic.mapM fun text => (Regex.read text).mapError (BadExpression.mk text) with
  | error e => rfl
  | ok generic => rfl

/-! ## What is decided -/

section

variable (r candidates)
  (hdefinitions : List.Forall₂ (fun d d' => Path.IsSpelling d.1 d'.1 ∧ d'.2 = d.2)
    v.options.definitions definitions)

include hdefinitions

/-- The same names are known of a file. -/
theorem knownNames_respelled (path : String) :
    (v.naming definitions candidates).knownNames path = v.knownNames path := by
  show ((definitions.filter fun d => Path.normalized d.1 == path).flatMap (·.2)).filter _
    = ((v.options.definitions.filter fun d => Path.normalized d.1 == path).flatMap (·.2)).filter _
  congr 1
  generalize v.options.definitions = known at hdefinitions ⊢
  induction hdefinitions with
  | nil => rfl
  | cons hd _ ih =>
      obtain ⟨hspelling, hnames⟩ := hd
      rw [List.filter_cons, List.filter_cons, hspelling]
      split
      · rw [List.flatMap_cons, List.flatMap_cons, hnames, ih]
      · exact ih

/-- The same reasons are found for a comment, given the same comments before it. -/
theorem reasons_respelled (shelf : Shelf) {kept kept' : List Comment}
    (hkept : List.Forall₂ CommentOf.IsRespelled kept kept') {c c' : Comment} (hc : c.IsRespelled c') :
    (v.naming definitions candidates).reasons r shelf kept' c' = v.reasons r shelf kept c := by
  have hpath := hc.path_eq
  obtain ⟨file, -, rfl⟩ := hc
  have hlocation : locationExists shelf { c with file := file } = locationExists shelf c := by
    rw [locationExists, locationExists, hpath]
  have hknown : (v.naming definitions candidates).mentionsKnown { c with file := file }
      = v.mentionsKnown c := by
    rw [mentionsKnown, mentionsKnown, hpath, knownNames_respelled candidates hdefinitions]
  have hrepeats : kept'.any ((v.naming definitions candidates).repeats r { c with file := file })
      = kept.any (v.repeats r c) := by
    refine any_eq_of_forall₂ hkept ?_
    intro k k' hk
    rw [repeats, repeats, hpath, hk.path_eq]
    obtain ⟨file', -, rfl⟩ := hk
    rfl
  have hresembles : kept'.any (resembles r { c with file := file }) = kept.any (resembles r c) := by
    refine any_eq_of_forall₂ hkept ?_
    intro k k' hk
    obtain ⟨file', -, rfl⟩ := hk
    rfl
  have hplain : (v.naming definitions candidates).plainReasons r shelf kept' { c with file := file }
      = v.plainReasons r shelf kept c := by
    rw [plainReasons, plainReasons, hlocation, hknown, hrepeats]
    rfl
  rw [reasons, reasons, hplain, hresembles]
  rfl

/-- **Comments are decided alike, one by one.** -/
theorem exists_decisions (shelf : Shelf) {kept kept' cs cs' : List Comment}
    (hkept : List.Forall₂ CommentOf.IsRespelled kept kept')
    (hcs : List.Forall₂ CommentOf.IsRespelled cs cs') :
    ∃ whys : List (List DropReason), whys.length = cs.length ∧
      v.decisions r shelf kept cs = cs.zip whys ∧
        (v.naming definitions candidates).decisions r shelf kept' cs' = cs'.zip whys := by
  induction hcs generalizing kept kept' with
  | nil => exact ⟨[], rfl, rfl, rfl⟩
  | @cons c c' rest rest' hc _ ih =>
      have hsame := reasons_respelled r candidates hdefinitions shelf hkept hc
      -- both are among the kept ones for the rest, or neither is
      have hnext : List.Forall₂ CommentOf.IsRespelled
          (if (v.reasons r shelf kept c).isEmpty then kept ++ [c] else kept)
          (if (v.reasons r shelf kept c).isEmpty then kept' ++ [c'] else kept') := by
        split
        · exact List.rel_append hkept (.cons hc .nil)
        · exact hkept
      obtain ⟨whys, hlength, hdecided, hdecided'⟩ := ih hnext
      refine ⟨v.reasons r shelf kept c :: whys, congrArg (· + 1) hlength, ?_, ?_⟩
      · rw [decisions, hdecided, List.zip_cons_cons]
      · rw [decisions, hsame, hdecided', List.zip_cons_cons]

end

/-! ## What becomes of comments that were decided alike -/

section

variable {cs cs' : List Comment} (hcs : List.Forall₂ CommentOf.IsRespelled cs cs')
  (whys : List (List DropReason))

include hcs

theorem zip_respelled :
    List.Forall₂ (fun d d' : Comment × List DropReason => d.1.IsRespelled d'.1 ∧ d'.2 = d.2)
      (cs.zip whys) (cs'.zip whys) := by
  induction hcs generalizing whys with
  | nil => exact .nil
  | cons hc _ ih =>
      cases whys with
      | nil => exact .nil
      | cons why rest => exact .cons ⟨hc, rfl⟩ (ih rest)

theorem keptOf_zip_respelled :
    List.Forall₂ CommentOf.IsRespelled (keptOf (cs.zip whys)) (keptOf (cs'.zip whys)) := by
  have hkept := List.rel_filter (p := fun d => d.2.isEmpty) (q := fun d => d.2.isEmpty)
    (fun d d' hd => by simp only [hd.2]) (zip_respelled hcs whys)
  rw [keptOf, keptOf, List.forall₂_map_left_iff, List.forall₂_map_right_iff]
  exact hkept.imp fun d d' hd => hd.1

theorem droppedOf_zip_respelled :
    List.Forall₂ Dropped.IsRespelled (droppedOf (cs.zip whys)) (droppedOf (cs'.zip whys)) := by
  have hdropped := List.rel_filter (p := fun d => !d.2.isEmpty) (q := fun d => !d.2.isEmpty)
    (fun d d' hd => by simp only [hd.2]) (zip_respelled hcs whys)
  rw [droppedOf, droppedOf, List.forall₂_map_left_iff, List.forall₂_map_right_iff]
  exact hdropped

/-- Comments that stay are kept alike. -/
theorem keepAlike_stays : KeepAlike cs [] cs' [] := by
  induction hcs with
  | nil => exact .nil
  | cons hc _ ih => exact .stays hc ih

end

section

variable {o : PlacementOptions} {files : LoadedFiles} {c c' : Comment} (hc : c.IsRespelled c')

include hc

/-- A comment is found misplaced wherever it is spelled otherwise, with the same evidence. -/
theorem misplaced?_respelled :
    Option.Rel Misplaced.IsRespelled (c.misplaced? r o files) (c'.misplaced? r o files) := by
  have hpath := hc.path_eq
  obtain ⟨file, hfile, rfl⟩ := hc
  have hsame : (Comment.placement r o files { c with file := file }).suggested
      = (c.placement r o files).suggested := rfl
  rw [Comment.misplaced?, Comment.misplaced?, hsame]
  cases (c.placement r o files).suggested with
  | none => exact .none
  | some m =>
      simp only [hpath]
      split
      · exact .none
      · exact .some ⟨⟨file, hfile, rfl⟩, ⟨hfile, rfl⟩, rfl, rfl⟩

/-- A comment is moved to the same place wherever it is spelled otherwise. -/
theorem relocation_respelled :
    Option.Rel (fun x y : Moved => x.found.IsRespelled y.found ∧ y.comment = x.comment ∧
      y.confidence = x.confidence)
      (relocation r o files c) (relocation r o files c') := by
  have hpath := hc.path_eq
  obtain ⟨file, hfile, rfl⟩ := hc
  have hsame : (Comment.placement r o files { c with file := file }).suggested
      = (c.placement r o files).suggested := rfl
  rw [relocation, relocation, Comment.moved?, Comment.moved?, hsame, hpath]
  cases (c.placement r o files).suggested with
  | none => exact .none
  | some m =>
      show Option.Rel _
        (if decide (m.file ≠ c.path) || decide ((m.line : Int) ≠ c.line) then _ else none)
        (if decide (m.file ≠ c.path) || decide ((m.line : Int) ≠ c.line) then _ else none)
      split
      · exact .some ⟨⟨hfile, rfl⟩, rfl, rfl⟩
      · exact .none

end

/-- Comments that are kept alike are moved alike. -/
theorem keepAlike_relocated (o : PlacementOptions) (files : LoadedFiles) {kept kept' : List Comment}
    (hkept : List.Forall₂ CommentOf.IsRespelled kept kept') :
    KeepAlike
      ((kept.map fun c => (c, relocation r o files c)).map fun p => (p.2.map (·.comment)).getD p.1)
      ((kept.map fun c => (c, relocation r o files c)).filterMap (·.2))
      ((kept'.map fun c => (c, relocation r o files c)).map fun p => (p.2.map (·.comment)).getD p.1)
      ((kept'.map fun c => (c, relocation r o files c)).filterMap (·.2)) := by
  induction hkept with
  | nil => exact .nil
  | @cons c c' _ _ hc _ ih =>
      have hmoved : Option.Rel _ (relocation r o files c) (relocation r o files c') :=
        relocation_respelled hc
      rw [List.map_cons, List.map_cons, List.map_cons, List.map_cons, List.filterMap_cons,
        List.filterMap_cons]
      -- both are moved to the same place, or neither is
      generalize relocation r o files c = m? at hmoved ⊢
      generalize relocation r o files c' = m?' at hmoved ⊢
      cases hmoved with
      | none => exact .stays hc ih
      | @some m m' h =>
          obtain ⟨comment, found, confidence⟩ := m
          obtain ⟨comment', found', confidence'⟩ := m'
          obtain ⟨hfound, rfl, rfl⟩ := h
          exact .moves hfound ih

/-! ## Verification -/

variable (definitions) in
/-- The same files are needed. -/
theorem filesNeeded_respelled (hcandidates : List.Forall₂ Path.IsSpelling v.options.candidates candidates)
    {cs cs' : List Comment} (hcs : List.Forall₂ CommentOf.IsRespelled cs cs') :
    (v.naming definitions candidates).filesNeeded cs' = v.filesNeeded cs := by
  have hfiles : List.Forall₂ Path.IsSpelling (cs.map (·.file)) (cs'.map (·.file)) := by
    refine List.rel_map ?_ hcs
    intro c c' hc
    exact hc.path_eq
  have hchosen : List.Forall₂ Path.IsSpelling
      (if v.options.placement.isSome then v.options.candidates else [])
      (if v.options.placement.isSome then candidates else []) := by
    split
    · exact hcandidates
    · exact .nil
  show (((if v.options.placement.isSome then candidates else []) ++ cs'.map (·.file)).map
      Path.normalized).eraseDups = _
  rw [filesNeeded, map_eq_of_forall₂ (List.rel_append hchosen hfiles) fun _ _ hf => hf]

variable (r candidates) in
/-- Verdicts on one shelf are the same but for spellings, and so are the reasons of each comment. -/
theorem verdictOn_respelled
    (hdefinitions : List.Forall₂ (fun d d' => Path.IsSpelling d.1 d'.1 ∧ d'.2 = d.2)
      v.options.definitions definitions)
    {cs cs' : List Comment} (hcs : List.Forall₂ CommentOf.IsRespelled cs cs') (shelf : Shelf) :
    (v.verdictOn r shelf cs).IsRespelled
        ((v.naming definitions candidates).verdictOn r shelf cs') ∧
      ∃ whys : List (List DropReason), whys.length = cs.length ∧
        (v.verdictOn r shelf cs).dropped = droppedOf (cs.zip whys) ∧
        ((v.naming definitions candidates).verdictOn r shelf cs').dropped
          = droppedOf (cs'.zip whys) := by
  obtain ⟨whys, hlength, hdecided, hdecided'⟩ :=
    exists_decisions r candidates hdefinitions shelf .nil hcs
  have hdropped := v.dropped_verdictOn r shelf cs
  have hdropped' := (v.naming definitions candidates).dropped_verdictOn r shelf cs'
  rw [hdecided] at hdropped
  rw [hdecided'] at hdropped'
  have hkept := keptOf_zip_respelled hcs whys
  refine ⟨⟨?_, ?_, ?_⟩, whys, hlength, hdropped, hdropped'⟩
  · by_cases hstill : v.options.placement = none ∨ v.options.relocate = false
    · obtain ⟨hkept, hmoved⟩ := v.kept_verdictOn r hstill shelf cs
      obtain ⟨hkept', hmoved'⟩ :=
        (v.naming definitions candidates).kept_verdictOn r hstill shelf cs'
      rw [hkept, hmoved, hkept', hmoved', hdecided, hdecided']
      exact keepAlike_stays (keptOf_zip_respelled hcs whys)
    · obtain ⟨hplace, hmove⟩ := not_or.1 hstill
      obtain ⟨o, hplace⟩ := Option.ne_none_iff_exists'.1 hplace
      rw [Bool.not_eq_false] at hmove
      rw [v.verdictOn_relocating hplace hmove,
        (v.naming definitions candidates).verdictOn_relocating hplace hmove, hdecided, hdecided']
      exact keepAlike_relocated o _ (keptOf_zip_respelled hcs whys)
  · rw [hdropped, hdropped']
    exact droppedOf_zip_respelled hcs whys
  · rw [misplaced_verdictOn, misplaced_verdictOn]
    show List.Forall₂ _ (v.options.placement.elim [] _) (v.options.placement.elim [] _)
    cases v.options.placement with
    | none => exact .nil
    | some o => exact List.rel_filterMap (fun _ _ hc => misplaced?_respelled hc) hcs

/-- **Other spellings of files get the same verdict.** Where the names of files in comments and options
    are spelled otherwise, the options are read or refused alike, and verification has an answer or the
    same fault. The answers keep, drop and misplace the same comments, for the same reasons one by one and
    with the same evidence, and move the same ones to the same places. -/
theorem verdict_respelled {o : VerifyOptions} (t : Tree) (root : Location)
    (hdefinitions : List.Forall₂ (fun d d' => Path.IsSpelling d.1 d'.1 ∧ d'.2 = d.2)
      o.definitions definitions)
    (hcandidates : List.Forall₂ Path.IsSpelling o.candidates candidates)
    {cs cs' : List Comment} (hcs : List.Forall₂ CommentOf.IsRespelled cs cs') :
    (∀ e, ofOptions o = .error e → ofOptions (o.naming definitions candidates) = .error e) ∧
      ∀ v, ofOptions o = .ok v →
        ∃ v', ofOptions (o.naming definitions candidates) = .ok v' ∧
          (∀ fault, v.verdict r t root cs = .error fault → v'.verdict r t root cs' = .error fault) ∧
          ∀ d, v.verdict r t root cs = .ok d →
            ∃ d', v'.verdict r t root cs' = .ok d' ∧ d.IsRespelled d' ∧
              ∃ whys : List (List DropReason), whys.length = cs.length ∧
                d.dropped = droppedOf (cs.zip whys) ∧ d'.dropped = droppedOf (cs'.zip whys) := by
  rw [ofOptions_naming]
  constructor
  · intro e he
    rw [he]
    rfl
  · intro v hv
    obtain rfl : v.options = o := by
      obtain ⟨generic, -, h⟩ := bind_eq_ok_iff.1 hv
      rw [← Except.ok.inj h]
    refine ⟨v.naming definitions candidates, by rw [hv]; rfl, ?_, ?_⟩
    · intro fault hfault
      rw [verdict_eq_error_iff] at hfault ⊢
      rw [filesNeeded_respelled definitions hcandidates hcs, hfault]
    · intro d hd
      obtain ⟨shelf, hshelf, rfl⟩ := verdict_eq_ok_iff.1 hd
      rw [← filesNeeded_respelled definitions hcandidates hcs] at hshelf
      obtain ⟨hsame, hwhys⟩ := verdictOn_respelled r candidates hdefinitions hcs shelf
      exact ⟨_, verdict_eq_ok_iff.2 ⟨shelf, hshelf, rfl⟩, hsame, hwhys⟩

/-- Options that name files in roundabout ways. -/
def roundabout : VerifyOptions :=
  ⟨[("./c", ["x"])], 0, [], 1, some ⟨1, 1, false⟩, true, ["b//."]⟩

theorem verdict_roundabout : (⟨roundabout, []⟩ : Verifier).verdict .binary64 twoFiles [] twoComments
    = .ok ((⟨roundabout, []⟩ : Verifier).verdictOn .binary64 [("b", some [""]), ("c", some ["x", "y"])]
        twoComments) :=
  verdict_eq_ok_iff.2 ⟨[("b", some [""]), ("c", some ["x", "y"])], by cbv, rfl⟩

theorem moved_roundabout : ((⟨roundabout, []⟩ : Verifier).verdictOn .binary64
    [("b", some [""]), ("c", some ["x", "y"])] twoComments).moved
      = [⟨⟨"c", 2, .minor, "naming", "y", ""⟩, ⟨"./b", 1⟩, 1⟩] := by decide +kernel

/-- Two comments on the two files, one of them moved, and the same files in other ways. -/
theorem verdict_respelled_twoFiles :
    List.Forall₂ (fun d d' => Path.IsSpelling d.1 d'.1 ∧ d'.2 = d.2) roundabout.definitions
        [("c/.", ["x"])] ∧
      List.Forall₂ Path.IsSpelling roundabout.candidates ["./b"] ∧
      List.Forall₂ CommentOf.IsRespelled twoComments
        [⟨"c//", 1, .minor, "naming", "x", ""⟩, ⟨"b", 1, .minor, "naming", "y", ""⟩] ∧
      ofOptions roundabout = .ok ⟨roundabout, []⟩ ∧
      ∃ v' d d', ofOptions (roundabout.naming [("c/.", ["x"])] ["./b"]) = .ok v' ∧
        (⟨roundabout, []⟩ : Verifier).verdict .binary64 twoFiles [] twoComments = .ok d ∧
        d.moved = [⟨⟨"c", 2, .minor, "naming", "y", ""⟩, ⟨"./b", 1⟩, 1⟩] ∧
        v'.verdict .binary64 twoFiles []
          [⟨"c//", 1, .minor, "naming", "x", ""⟩, ⟨"b", 1, .minor, "naming", "y", ""⟩] = .ok d' ∧
        d.IsRespelled d' := by
  have hdefinitions : List.Forall₂ (fun d d' => Path.IsSpelling d.1 d'.1 ∧ d'.2 = d.2)
      roundabout.definitions [("c/.", ["x"])] :=
    .cons ⟨show Path.normalized "c/." = Path.normalized "./c" by decide, rfl⟩ .nil
  have hcandidates : List.Forall₂ Path.IsSpelling roundabout.candidates ["./b"] :=
    .cons (show Path.normalized "./b" = Path.normalized "b//." by decide) .nil
  have hcomments : List.Forall₂ CommentOf.IsRespelled twoComments
      [⟨"c//", 1, .minor, "naming", "x", ""⟩, ⟨"b", 1, .minor, "naming", "y", ""⟩] :=
    .cons ⟨"c//", show Path.normalized "c//" = Path.normalized "c" by decide, rfl⟩
      (.cons ⟨"b", show Path.normalized "b" = Path.normalized "./b" by decide, rfl⟩ .nil)
  obtain ⟨v', hv', -, hanswer⟩ :=
    (verdict_respelled twoFiles [] hdefinitions hcandidates hcomments).2 ⟨roundabout, []⟩ rfl
  obtain ⟨d', hd', hsame, -⟩ := hanswer _ verdict_roundabout
  exact ⟨hdefinitions, hcandidates, hcomments, rfl, v', _, d', hv', verdict_roundabout,
    moved_roundabout, hd', hsame⟩

end Verifier

end PatchReview
