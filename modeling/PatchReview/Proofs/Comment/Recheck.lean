import Mathlib
import PatchReview.Proofs.Comment.Relocation
import PatchReview.Proofs.Similarity.Words

/-!
# What relocation keeps of the checks

Comments are checked where they are found and moved afterwards, and nothing is checked again. A comment
that was kept still stands at a line of a file, suggests something and is like no comment before it in
what it says, since its text is what it was. What it mentions is known of the file in which it was
found, and what it repeats was looked for there: of this only so much remains as does not depend on the
place of a comment that was moved (`verdict_stillPasses`, `verdict_crowded`).
-/

namespace PatchReview

open PatchReview.Number (Rounding nearestBinary)

namespace Verifier

variable (v : Verifier) (r : Rounding) (t : Tree) (root : Location)

/-- What still holds of a comment that was found as `found` and is answered as `c`, given the comments
    kept before it, both as they were found and as they are answered. -/
structure StillPasses (foundBefore answeredBefore : List Comment) (found c : Comment) : Prop where
  asFound    : ∀ reason, ¬v.Fails r t root foundBefore found reason
  same       : ∃ file line, c = found.movedTo file line
  location   : ¬v.Fails r t root answeredBefore c .invalidLocation
  suggestion : ¬v.Fails r t root answeredBefore c .weakSuggestion
  symbols    : c.path = found.path → ¬v.Fails r t root answeredBefore c .noKnownSymbols
  repeats    : c = found → ∀ (n : Nat) (k : Comment), foundBefore[n]? = some k →
    answeredBefore[n]? = some k → ¬v.Fails r t root [k] c .duplicate
  likeness   : ¬v.Fails r t root answeredBefore c .fuzzyDuplicate

variable {r t root}

/-! ## What does not depend on the place -/

theorem fails_weakSuggestion_movedTo {kept kept' : List Comment} {c : Comment} {file : String}
    {line : Int} : v.Fails r t root kept' (c.movedTo file line) .weakSuggestion ↔
      v.Fails r t root kept c .weakSuggestion :=
  Iff.rfl

theorem fails_noKnownSymbols_movedTo {kept kept' : List Comment} {c : Comment} {file : String}
    {line : Int} (hpath : (c.movedTo file line).path = c.path) :
    v.Fails r t root kept' (c.movedTo file line) .noKnownSymbols ↔
      v.Fails r t root kept c .noKnownSymbols := by
  rw [Fails, Fails, hpath]
  rfl

/-- Likeness to the comments before depends on nothing but what is said. -/
theorem fails_fuzzyDuplicate_movedTo {kept kept' : List Comment} {c : Comment} {file : String}
    {line : Int}
    (hkept : List.Forall₂ (fun k k' => ∃ file line, k' = k.movedTo file line) kept kept') :
    v.Fails r t root kept' (c.movedTo file line) .fuzzyDuplicate ↔
      v.Fails r t root kept c .fuzzyDuplicate := by
  -- the check compares rationales only, and moving leaves these as they are
  have hsaid : kept'.map (·.rationale) = kept.map (·.rationale) := by
    induction hkept with
    | nil => rfl
    | cons hk _ ih =>
        obtain ⟨file, line, rfl⟩ := hk
        rw [List.map_cons, List.map_cons, ih]
        rfl
  have hall : ∀ ks : List Comment, v.Fails r t root ks c .fuzzyDuplicate ↔
      v.options.placement.isSome = true ∧ ∃ said ∈ ks.map (·.rationale),
        nearestBinary (17 / 20)
          < Similarity.similarity r said.toList c.rationale.toList := by
    intro ks
    simp only [Fails, List.mem_map, exists_exists_and_eq_and]
  exact (hall kept').trans (hsaid ▸ (hall kept).symm)

/-- Who repeats one of the comments before repeats some of them. -/
theorem fails_duplicate_of_mem {kept : List Comment} {k c : Comment} (hk : k ∈ kept)
    (h : v.Fails r t root [k] c .duplicate) : v.Fails r t root kept c .duplicate := by
  obtain ⟨k', hk', hrepeats⟩ := h
  obtain rfl := List.mem_singleton.1 hk'
  exact ⟨k', hk, hrepeats⟩

variable {o : PlacementOptions}

/-- **What relocation keeps of the checks.** Each comment that is kept passed every check as it was
    found, and its place is all that may be another. There it still stands at a line, suggests something,
    and is like no comment before it; if it is in the same file, it still mentions what is known of that
    file, and if it was not moved, it repeats none before it that was not moved either. -/
theorem verdict_stillPasses (hplace : v.options.placement = some o) (hmost : 0 < o.maxMatches)
    (hmove : v.options.relocate = true) {comments : List Comment} {after : Verdict}
    (h : v.verdict r t root comments = .ok after) :
    ∃ before, v.unmoved.verdict r t root comments = .ok before ∧
      after.kept.length = before.kept.length ∧
      ∀ n found c, before.kept[n]? = some found → after.kept[n]? = some c →
        v.StillPasses r t root (before.kept.take n) (after.kept.take n) found c := by
  obtain ⟨shelf, hshelf, h⟩ := bind_eq_ok_iff.1 h
  obtain rfl : v.verdictOn r shelf comments = after := Except.ok.inj h
  have hbefore : v.unmoved.verdict r t root comments = .ok (v.unmoved.verdictOn r shelf comments) :=
    bind_eq_ok_iff.2 ⟨shelf, hshelf, rfl⟩
  have hrelocated := v.relocated_verdictOn (r := r) hplace hmost hmove hshelf
  refine ⟨_, hbefore, hrelocated.length_eq, fun n found c hfound hc => ?_⟩
  -- the comment was checked as it was found, with those found before it at hand
  obtain ⟨hn, rfl⟩ := List.getElem?_eq_some_iff.1 hfound
  have hsplit := (List.take_append_drop n (v.unmoved.verdictOn r shelf comments).kept).symm
  rw [List.drop_eq_getElem_cons hn] at hsplit
  have hpassed := v.not_fails_of_unmoved hplace hbefore hsplit
  -- it is answered with another place at most, and so are those before it
  obtain ⟨hn', rfl⟩ := List.getElem?_eq_some_iff.1 hc
  have hstands := v.stands_of_mem_kept (r := r) (v.forall_mem_placement hplace hmost) hshelf
  have hline := (hstands _ (List.getElem_mem hn')).1
  have htake := List.forall₂_take n hrelocated.forall₂
  obtain ⟨file, line, heq⟩ := hrelocated.forall₂.get hn hn'
  rw [List.get_eq_getElem, List.get_eq_getElem] at heq
  rw [heq] at hline ⊢
  exact
    { asFound := hpassed
      same := ⟨file, line, rfl⟩
      location := not_not_intro hline
      suggestion := v.fails_weakSuggestion_movedTo.not.2 (hpassed .weakSuggestion)
      symbols := fun hpath => (v.fails_noKnownSymbols_movedTo hpath).not.2 (hpassed .noKnownSymbols)
      repeats := by
        intro hstays m k hk _ hrepeats
        rw [hstays] at hrepeats
        exact hpassed .duplicate (v.fails_duplicate_of_mem (List.mem_of_getElem? hk) hrepeats)
      likeness := (v.fails_fuzzyDuplicate_movedTo htake).not.2 (hpassed .fuzzyDuplicate) }

/-- Both comments on the two files still pass. -/
theorem verdict_stillPasses_twoFiles :
    mover.options.placement = some ⟨1, 1, false⟩ ∧ (0 : Int) < 1 ∧ mover.options.relocate = true ∧
      ∃ before after, mover.verdict .binary64 twoFiles [] twoComments = .ok after ∧
        mover.unmoved.verdict .binary64 twoFiles [] twoComments = .ok before ∧
        before.kept = twoComments ∧ after.kept.length = before.kept.length ∧
        ∀ n found c, before.kept[n]? = some found → after.kept[n]? = some c →
          mover.StillPasses .binary64 twoFiles [] (before.kept.take n) (after.kept.take n) found c := by
  obtain ⟨before, hbefore, hlength, hpasses⟩ :=
    verdict_stillPasses mover (o := ⟨1, 1, false⟩) rfl (by decide) rfl verdict_twoFiles
  obtain rfl := Except.ok.inj (verdict_twoFiles_unmoved.symm.trans hbefore)
  exact ⟨rfl, by decide, rfl, _, _, verdict_twoFiles, verdict_twoFiles_unmoved, kept_twoFiles,
    hlength, hpasses⟩

/-! ## Comments that would not be kept where they end -/

/-- Ten words of eleven are the same in these, but many characters are not. -/
def sayings : List String :=
  ["a b c d e f g h i j xxxxxxxx", "a b c d e f g h i j yyyyyyyy", "a b c d e f g h i j zzzzzzzz"]

theorem similarity_sayings : ∀ said ∈ sayings, ∀ line ∈ "" :: sayings,
    line = said ∧ Similarity.similarity .binary64 said.toList line.toList = 1 ∨
      line ≠ said ∧
        Similarity.similarity .binary64 said.toList line.toList ≤ nearestBinary (17 / 20) := by
  simp only [Similarity.similarity, Similarity.tokenSortRatio, Similarity.tokenSetRatio,
    Similarity.setLikeness, Similarity.sortedText_eq]
  decide +kernel

/-- A comment about a file of which one name is known. -/
def staying : Comment :=
  ⟨"c", 2, .minor, "naming", "a b c d e f g h i j xxxxxxxx", "Call load."⟩

/-- A comment that says nearly the same about another file. -/
def firstMoving : Comment :=
  ⟨"b", 1, .minor, "naming", "a b c d e f g h i j yyyyyyyy", "Rename it."⟩

/-- A comment that says nearly the same about a third file. -/
def lastMoving : Comment :=
  ⟨"d", 1, .minor, "naming", "a b c d e f g h i j zzzzzzzz", "Rename it."⟩

/-- A verifier that knows a name and moves comments to lines that say the same. -/
def knowing : Verifier := ⟨⟨[("c", ["load"])], 0, [], 2, some ⟨1, 1, false⟩, true, []⟩, []⟩

/-- Two empty files, and one that says in its first and its last line what the others do. -/
def crowdedFiles : Tree :=
  ((Tree.empty.write ["b"] ⟨#[]⟩).write ["c"]
    "a b c d e f g h i j yyyyyyyy\n\na b c d e f g h i j zzzzzzzz".toUTF8).write ["d"] ⟨#[]⟩

/-- The lines of these files. -/
def crowdedShelf : Shelf :=
  [("b", some [""]),
    ("c", some ["a b c d e f g h i j yyyyyyyy", "", "a b c d e f g h i j zzzzzzzz"]),
    ("d", some [""])]

theorem shelf_crowdedFiles :
    crowdedFiles.shelf [] (knowing.filesNeeded [firstMoving, staying, lastMoving])
      = .ok crowdedShelf := by cbv

theorem likeness_lt_one {c : Comment} {line : String} (hc : c.rationale ∈ sayings)
    (hline : line ∈ "" :: sayings) (hne : line ≠ c.rationale) : c.likeness .binary64 line < 1 := by
  have hbound : nearestBinary (17 / 20) < 1 := by decide +kernel
  obtain ⟨heq, -⟩ | ⟨-, hlike⟩ := similarity_sayings _ hc _ hline
  · exact absurd heq hne
  · exact lt_of_le_of_lt hlike hbound

theorem likeness_self {c : Comment} (hc : c.rationale ∈ sayings) :
    c.likeness .binary64 c.rationale = 1 := by
  obtain ⟨-, hlike⟩ | ⟨hne, -⟩ := similarity_sayings _ hc _ (List.mem_cons_of_mem _ hc)
  · exact hlike
  · exact absurd rfl hne

theorem resembles_sayings {c k : Comment} (hc : c.rationale ∈ sayings) (hk : k.rationale ∈ sayings)
    (hne : c.rationale ≠ k.rationale) : resembles .binary64 c k = false := by
  obtain ⟨heq, -⟩ | ⟨-, hlike⟩ := similarity_sayings _ hk _ (List.mem_cons_of_mem _ hc)
  · exact absurd heq hne
  · exact decide_eq_false (Rat.not_lt.2 hlike)

theorem keptOf_crowded :
    keptOf (knowing.decisions .binary64 crowdedShelf [] [firstMoving, staying, lastMoving])
      = [firstMoving, staying, lastMoving] := by
  have hfirst : knowing.reasons .binary64 crowdedShelf [] firstMoving = [] := by decide +kernel
  have hsecond : knowing.reasons .binary64 crowdedShelf [firstMoving] staying = [] := by
    have hplain : knowing.plainReasons .binary64 crowdedShelf [firstMoving] staying = [] := by
      decide +kernel
    have hunlike : resembles .binary64 staying firstMoving = false :=
      resembles_sayings (by decide) (by decide) (by decide)
    simp only [reasons, hplain, List.any_cons, List.any_nil, hunlike, Bool.or_false, Bool.and_false,
      Bool.false_eq_true, if_false]
  have hlast : knowing.reasons .binary64 crowdedShelf [firstMoving, staying] lastMoving = [] := by
    have hplain : knowing.plainReasons .binary64 crowdedShelf [firstMoving, staying] lastMoving = [] := by
      decide +kernel
    have hunlike : resembles .binary64 lastMoving firstMoving = false :=
      resembles_sayings (by decide) (by decide) (by decide)
    have hunlike' : resembles .binary64 lastMoving staying = false :=
      resembles_sayings (by decide) (by decide) (by decide)
    simp only [reasons, hplain, List.any_cons, List.any_nil, hunlike, hunlike', Bool.or_false,
      Bool.and_false, Bool.false_eq_true, if_false]
  simp only [decisions, hfirst, hsecond, hlast, List.isEmpty_nil, if_true, List.nil_append,
    List.singleton_append]
  rfl

/-- The lines of these files with their scores. -/
theorem allLines_crowded (score : String → Rat) :
    (loaded crowdedShelf).allLines score
      = [⟨"b", 1, "", score ""⟩,
          ⟨"c", 1, "a b c d e f g h i j yyyyyyyy", score "a b c d e f g h i j yyyyyyyy"⟩,
          ⟨"c", 2, "", score ""⟩,
          ⟨"c", 3, "a b c d e f g h i j zzzzzzzz", score "a b c d e f g h i j zzzzzzzz"⟩,
          ⟨"d", 1, "", score ""⟩] :=
  rfl

theorem relocation_staying :
    relocation .binary64 ⟨1, 1, false⟩ (loaded crowdedShelf) staying = none := by
  rw [relocation_eq_none_iff (by decide)]
  rintro m ⟨hbest, hleast⟩
  have hlow : ∀ m ∈ (loaded crowdedShelf).allLines (staying.likeness .binary64), m.score < 1 := by
    simp only [allLines_crowded, List.forall_mem_cons]
    refine ⟨?_, ?_, ?_, ?_, ?_, fun m hm => nomatch hm⟩
    all_goals exact likeness_lt_one (by decide) (by decide) (by decide)
  exact absurd hleast (Rat.not_le.2 (hlow m hbest.mem))

/-- A comment is moved to the one line that says the same. -/
theorem relocation_saying {c : Comment} {file : String} {line : Nat} {front back : List LineMatch}
    (hc : c.rationale ∈ sayings) (hfile : file ≠ c.path)
    (hlines : (loaded crowdedShelf).allLines (c.likeness .binary64)
      = front ++ ⟨file, line, c.rationale, c.likeness .binary64 c.rationale⟩ :: back)
    (hothers : ∀ m ∈ front ++ back, m.score < 1) :
    relocation .binary64 ⟨1, 1, false⟩ (loaded crowdedShelf) c
      = some ⟨c.movedTo file line, ⟨c.file, c.line⟩, 1⟩ := by
  obtain ⟨hfront, hback⟩ := List.forall_mem_append.1 hothers
  rw [likeness_self hc] at hlines
  refine (relocation_eq_some_iff (by decide)).2 ⟨_, ⟨⟨front, back, hlines, hfront, ?_⟩, le_rfl⟩,
    .inl hfile, rfl⟩
  exact fun m hm => le_of_lt (hback m hm)

theorem relocation_firstMoving :
    relocation .binary64 ⟨1, 1, false⟩ (loaded crowdedShelf) firstMoving
      = some ⟨firstMoving.movedTo "c" 1, ⟨"b", 1⟩, 1⟩ := by
  refine relocation_saying (by decide) (by decide)
    (show _ = [_] ++ _ :: [_, _, _] from allLines_crowded _) ?_
  simp only [List.cons_append, List.nil_append, List.forall_mem_cons]
  refine ⟨?_, ?_, ?_, ?_, fun m hm => nomatch hm⟩
  all_goals exact likeness_lt_one (by decide) (by decide) (by decide)

theorem relocation_lastMoving :
    relocation .binary64 ⟨1, 1, false⟩ (loaded crowdedShelf) lastMoving
      = some ⟨lastMoving.movedTo "c" 3, ⟨"d", 1⟩, 1⟩ := by
  refine relocation_saying (by decide) (by decide)
    (show _ = [_, _, _] ++ _ :: [_] from allLines_crowded _) ?_
  simp only [List.cons_append, List.nil_append, List.forall_mem_cons]
  refine ⟨?_, ?_, ?_, ?_, fun m hm => nomatch hm⟩
  all_goals exact likeness_lt_one (by decide) (by decide) (by decide)

/-- All three comments are kept. The first and the last are moved around the second: there they mention
    nothing that is known of the file, the second repeats the first, and the last repeats both. -/
theorem verdict_crowded :
    ∃ after, knowing.verdict .binary64 crowdedFiles [] [firstMoving, staying, lastMoving] = .ok after ∧
      after.kept = [firstMoving.movedTo "c" 1, staying, lastMoving.movedTo "c" 3] ∧
      knowing.Fails .binary64 crowdedFiles [] [] (firstMoving.movedTo "c" 1) .noKnownSymbols ∧
      knowing.Fails .binary64 crowdedFiles [] [firstMoving.movedTo "c" 1] staying .duplicate ∧
      knowing.Fails .binary64 crowdedFiles [] [staying] (lastMoving.movedTo "c" 3) .duplicate ∧
      knowing.Fails .binary64 crowdedFiles [] [firstMoving.movedTo "c" 1] (lastMoving.movedTo "c" 3)
        .duplicate := by
  have hafter : knowing.verdict .binary64 crowdedFiles [] [firstMoving, staying, lastMoving]
      = .ok (knowing.verdictOn .binary64 crowdedShelf [firstMoving, staying, lastMoving]) :=
    bind_eq_ok_iff.2 ⟨_, shelf_crowdedFiles, rfl⟩
  refine ⟨_, hafter, ?_, ?_, ?_⟩
  · rw [verdictOn_relocating knowing rfl rfl, keptOf_crowded]
    simp only [List.map_cons, List.map_nil, relocation_firstMoving, relocation_staying,
      relocation_lastMoving]
    rfl
  · have hnothing : ¬knowing.mentionsKnown (firstMoving.movedTo "c" 1) = true := by decide +kernel
    rwa [mentionsKnown_iff knowing .binary64 crowdedFiles [] [], Classical.not_not] at hnothing
  · simp only [← any_repeats_iff]
    decide +kernel

end Verifier

end PatchReview
