import Mathlib.Data.List.Forall2
import PatchReview.Comment.Verification
import PatchReview.Proofs.Tree.Lines

/-!
# Verification is a greedy filter

Each comment is decided by what is wrong with it (`Verifier.Applies`), which depends on the files, on
the options and on the comments before it that were kept, and on nothing else. The reasons are all
that apply, in a fixed order; comments with a reason are dropped and the others kept, both in the order
in which they came (`verdict_isGreedy_iff`).

There is an answer only where the path of every file that matters can be followed: a path with a zero
character in it, or one that leads in a circle, ends verification with a fault instead of being counted
among the files that cannot be read (`verdict_zeroCharacter`).
-/

namespace PatchReview

open PatchReview.Number (Rounding nearestBinary)

/-! ## Names in texts -/

/-- Whether a name stands in a text by itself: no character of a name right before or after it. -/
def StandsIn (name text : List Char) : Prop :=
  ∃ before after, text = before ++ (name ++ after) ∧
    (∀ c ∈ before.getLast?, isSymbolChar c = false) ∧ ∀ c ∈ after.head?, isSymbolChar c = false

/-- Whether a character of a name is missing at an end of a text; `elsewhere` is asked where the text
    is empty. -/
theorem getD_isSymbolChar (end? : Option Char) (elsewhere : Bool) :
    (end?.map isSymbolChar).getD elsewhere = false ↔
      (∀ c ∈ end?, isSymbolChar c = false) ∧ (end? = none → elsewhere = false) := by
  cases end? <;> simp

/-- The search for a name finds it where it stands by itself, minding what stands before the text. -/
theorem mentionsFrom_iff (name text : List Char) (before : Bool) :
    mentionsFrom name before text = true ↔
      ∃ front after, text = front ++ (name ++ after) ∧
        (front.getLast?.map isSymbolChar).getD before = false ∧
        (after.head?.map isSymbolChar).getD false = false := by
  induction text generalizing before with
  | nil =>
      simp only [mentionsFrom, Bool.and_eq_true, Bool.not_eq_true', List.isEmpty_iff]
      constructor
      · rintro ⟨rfl, hb⟩
        exact ⟨[], [], rfl, hb, rfl⟩
      · rintro ⟨front, after, htext, hfront, -⟩
        obtain ⟨rfl, hrest⟩ := List.append_eq_nil_iff.1 htext.symm
        exact ⟨(List.append_eq_nil_iff.1 hrest).1, hfront⟩
  | cons c rest ih =>
      simp only [mentionsFrom, Bool.or_eq_true, Bool.and_eq_true, Bool.not_eq_true', ih,
        List.isPrefixOf_iff_prefix]
      have hlast : ∀ front : List Char, ((c :: front).getLast?.map isSymbolChar).getD before
          = (front.getLast?.map isSymbolChar).getD (isSymbolChar c) := by
        intro front
        rw [List.getLast?_cons]
        cases front.getLast? <;> rfl
      -- the name stands at the start of the text, or later and then after `c`
      constructor
      · rintro (⟨⟨hb, after, htext⟩, hafter⟩ | ⟨front, after, rfl, hfront, hafter⟩)
        · rw [← htext, List.drop_left] at hafter
          exact ⟨[], after, htext.symm, hb, hafter⟩
        · exact ⟨c :: front, after, rfl, (hlast front).trans hfront, hafter⟩
      · rintro ⟨front, after, htext, hfront, hafter⟩
        cases front with
        | nil =>
            refine .inl ⟨⟨hfront, after, htext.symm⟩, ?_⟩
            rw [htext, List.nil_append, List.drop_left]
            exact hafter
        | cons d more =>
            obtain ⟨rfl, hrest⟩ := List.cons.inj htext
            exact .inr ⟨more, after, hrest, (hlast more).symm.trans hfront, hafter⟩

/-- **A name is mentioned where it stands by itself.** -/
theorem mentions_iff (text name : String) :
    mentions text name = true ↔ StandsIn name.toList text.toList := by
  rw [mentions, mentionsFrom_iff]
  simp only [getD_isSymbolChar, implies_true, and_true]
  rfl

/-- The reasons in the order in which they are given. -/
def DropReason.inOrder : List DropReason :=
  [.invalidLocation, .weakSuggestion, .noKnownSymbols, .duplicate, .fuzzyDuplicate]

/-- The comments that are kept of those decided. -/
def keptOf (decided : List (Comment × List DropReason)) : List Comment :=
  (decided.filter (·.2.isEmpty)).map (·.1)

/-- The comments that are dropped of those decided, with their reasons. -/
def droppedOf (decided : List (Comment × List DropReason)) : List Dropped :=
  (decided.filter (!·.2.isEmpty)).map fun d => ⟨d.1, d.2⟩

namespace Verifier

variable (v : Verifier) (r : Rounding) (t : Tree) (root : Location)

/-! ## What is wrong with a comment -/

/-- Whether a file is known to define a name. -/
def Knows (path name : String) : Prop :=
  name ≠ "" ∧ ∃ d ∈ v.options.definitions, Path.normalized d.1 = path ∧ name ∈ d.2

/-- What each reason says of a comment, given those kept before it. -/
def Fails (kept : List Comment) (c : Comment) : DropReason → Prop
  | .invalidLocation =>
    ¬∃ ls, t.lines root c.path = .ok (some ls) ∧ 1 ≤ c.line ∧ c.line ≤ ls.length
  | .weakSuggestion =>
    (Text.strip c.suggestion.toList).length < v.options.minSuggestion ∨
      ∃ e ∈ v.generic, e.occursIn (Text.strip c.suggestion.toList) = true
  | .noKnownSymbols =>
    (∃ name, v.Knows c.path name) ∧
      ∀ name, v.Knows c.path name →
        ¬StandsIn name.toList (c.rationale ++ "\n" ++ c.suggestion).toList
  | .duplicate =>
    ∃ k ∈ kept, k.path = c.path ∧ ((k.line - c.line).natAbs : Int) ≤ v.options.duplicateWindow ∧
      nearestBinary (9 / 10) < Similarity.wordOverlap r k.rationale.toList c.rationale.toList
  | .fuzzyDuplicate =>
    v.options.placement.isSome = true ∧
      ∃ k ∈ kept,
        nearestBinary (17 / 20) < Similarity.similarity r k.rationale.toList c.rationale.toList

/-- Whether a comment is dropped for a reason, given those kept before it: the last reason is asked
    for only where no other applies. -/
def Applies (kept : List Comment) (c : Comment) (reason : DropReason) : Prop :=
  v.Fails r t root kept c reason ∧
    (reason = .fuzzyDuplicate → ∀ other ≠ .fuzzyDuplicate, ¬v.Fails r t root kept c other)

theorem mem_knownNames_iff (path name : String) :
    name ∈ v.knownNames path ↔ v.Knows path name := by
  simp only [knownNames, Knows, List.mem_filter, List.mem_flatMap, beq_iff_eq, Bool.not_eq_true',
    String.isEmpty_eq_false_iff, and_assoc]
  exact and_comm

/-- A comment stands at a line of a file that the tree has, if the shelf has what the tree has. -/
theorem locationExists_iff {shelf : Shelf} (kept : List Comment) {c : Comment}
    (hshelf : t.lines root c.path = .ok (shelf.lines? c.path)) :
    locationExists shelf c = true ↔ ¬v.Fails r t root kept c .invalidLocation := by
  rw [locationExists, Fails]
  rw [hshelf, Classical.not_not]
  cases shelf.lines? c.path <;> simp

theorem suggestsSomething_iff (kept : List Comment) (c : Comment) :
    v.suggestsSomething c = true ↔ ¬v.Fails r t root kept c .weakSuggestion := by
  simp only [suggestsSomething, Fails, Bool.and_eq_true, decide_eq_true_eq, Bool.not_eq_true',
    List.any_eq_false, not_or, not_exists, not_and, Int.not_lt]

theorem mentionsKnown_iff (kept : List Comment) (c : Comment) :
    v.mentionsKnown c = true ↔ ¬v.Fails r t root kept c .noKnownSymbols := by
  have hempty : (v.knownNames c.path).isEmpty = true ↔ ¬∃ name, v.Knows c.path name := by
    rw [List.isEmpty_iff, List.eq_nil_iff_forall_not_mem]
    simp only [mem_knownNames_iff, not_exists]
  have hany : (v.knownNames c.path).any (mentions (c.rationale ++ "\n" ++ c.suggestion)) = true ↔
      ∃ name, v.Knows c.path name ∧
        StandsIn name.toList (c.rationale ++ "\n" ++ c.suggestion).toList := by
    simp only [List.any_eq_true, mem_knownNames_iff, mentions_iff]
  rw [mentionsKnown, Fails]
  rw [Bool.or_eq_true, hempty, hany, not_and_or]
  simp only [not_forall, Classical.not_not, exists_prop]

theorem any_repeats_iff (kept : List Comment) (c : Comment) :
    kept.any (v.repeats r c) = true ↔ v.Fails r t root kept c .duplicate := by
  simp only [List.any_eq_true, repeats, Fails, Bool.and_eq_true, decide_eq_true_eq, and_assoc]

theorem any_resembles_iff (kept : List Comment) (c : Comment) :
    (v.options.placement.isSome && kept.any (resembles r c)) = true ↔
      v.Fails r t root kept c .fuzzyDuplicate := by
  simp only [Bool.and_eq_true, List.any_eq_true, resembles, Fails, decide_eq_true_eq]

/-- The plain checks find the plain reasons that apply. -/
theorem mem_plainReasons_iff {shelf : Shelf} (kept : List Comment) {c : Comment}
    (hshelf : t.lines root c.path = .ok (shelf.lines? c.path)) (reason : DropReason) :
    reason ∈ v.plainReasons r shelf kept c ↔
      reason ≠ .fuzzyDuplicate ∧ v.Fails r t root kept c reason := by
  have hif : ∀ (found : Bool) (why : DropReason),
      reason ∈ (if found = true then [] else [why]) ↔ ¬found = true ∧ reason = why := by
    intro found why
    cases found <;> simp
  have hrepeat : reason ∈ (if kept.any (v.repeats r c) = true then [DropReason.duplicate] else []) ↔
      v.Fails r t root kept c .duplicate ∧ reason = .duplicate := by
    rw [← any_repeats_iff v r t root]
    cases kept.any (v.repeats r c) <;> simp
  rw [plainReasons]
  rw [List.mem_append, List.mem_append, List.mem_append, hif, hif, hif, hrepeat,
    locationExists_iff v r t root kept hshelf, suggestsSomething_iff v r t root kept,
    mentionsKnown_iff v r t root kept]
  cases reason <;> simp

/-- **The reasons of a comment are those that apply to it.** -/
theorem mem_reasons_iff {shelf : Shelf} (kept : List Comment) {c : Comment}
    (hshelf : t.lines root c.path = .ok (shelf.lines? c.path)) (reason : DropReason) :
    reason ∈ v.reasons r shelf kept c ↔ v.Applies r t root kept c reason := by
  have hplain := mem_plainReasons_iff v r t root kept hshelf
  rw [reasons, Applies]
  cases hfound : v.plainReasons r shelf kept c with
  | nil =>
      -- nothing plain applies, so the last reason is asked for and is the only one left
      have hnone : ∀ other ≠ .fuzzyDuplicate, ¬v.Fails r t root kept c other := by
        intro other hother hfails
        have := (hplain other).2 ⟨hother, hfails⟩
        rw [hfound] at this
        exact nomatch this
      have hfuzzy := any_resembles_iff v r t root kept c
      by_cases hlike : v.Fails r t root kept c .fuzzyDuplicate
      · simp only [hfuzzy.2 hlike, if_true, List.mem_singleton]
        constructor
        · rintro rfl
          exact ⟨hlike, fun _ => hnone⟩
        · rintro ⟨hfails, -⟩
          by_contra hne
          exact hnone reason hne hfails
      · have hunlike := Bool.eq_false_iff.2 (mt hfuzzy.1 hlike)
        simp only [hunlike, Bool.false_eq_true, if_false, List.not_mem_nil, false_iff]
        rintro ⟨hfails, -⟩
        by_cases hreason : reason = .fuzzyDuplicate
        · exact hlike (hreason ▸ hfails)
        · exact hnone reason hreason hfails
  | cons first more =>
      -- something plain applies, which rules the last reason out
      show reason ∈ first :: more ↔ _
      have hfirst := (hplain first).1 (hfound ▸ List.mem_cons_self)
      rw [← hfound, hplain]
      constructor
      · rintro ⟨hne, hfails⟩
        exact ⟨hfails, fun hreason => absurd hreason hne⟩
      · rintro ⟨hfails, hlast⟩
        exact ⟨fun hreason => hlast hreason first hfirst.1 hfirst.2, hfails⟩

/-- Where no reason is found for a comment, none holds of it. -/
theorem not_fails_of_reasons {shelf : Shelf} {kept : List Comment} {c : Comment}
    (hshelf : t.lines root c.path = .ok (shelf.lines? c.path))
    (h : v.reasons r shelf kept c = []) (reason : DropReason) : ¬v.Fails r t root kept c reason := by
  have hnone : ∀ other, ¬v.Applies r t root kept c other := by
    intro other happlies
    have := (mem_reasons_iff v r t root kept hshelf other).2 happlies
    rw [h] at this
    exact nomatch this
  have hplain : ∀ other ≠ .fuzzyDuplicate, ¬v.Fails r t root kept c other :=
    fun other hother hfails => hnone other ⟨hfails, fun heq => absurd heq hother⟩
  exact fun hfails => hnone reason ⟨hfails, fun _ => hplain⟩

/-- A found reason, or none. -/
theorem sublist_of_found (found : Bool) (why : DropReason) :
    (if found = true then [] else [why]).Sublist [why] := by
  cases found with
  | true => exact List.nil_sublist _
  | false => exact List.Sublist.refl _

theorem plainReasons_sublist (shelf : Shelf) (kept : List Comment) (c : Comment) :
    (v.plainReasons r shelf kept c).Sublist
      [.invalidLocation, .weakSuggestion, .noKnownSymbols, .duplicate] := by
  have hrepeat : (if kept.any (v.repeats r c) = true then [DropReason.duplicate] else []).Sublist
      [.duplicate] := by
    cases kept.any (v.repeats r c) with
    | true => exact List.Sublist.refl _
    | false => exact List.nil_sublist _
  exact (((sublist_of_found _ _).append (sublist_of_found _ _)).append (sublist_of_found _ _)).append
    hrepeat

/-- The reasons of a comment stand in order, each once. -/
theorem reasons_sublist (shelf : Shelf) (kept : List Comment) (c : Comment) :
    (v.reasons r shelf kept c).Sublist DropReason.inOrder := by
  have hplain := v.plainReasons_sublist r shelf kept c
  rw [reasons]
  cases hfound : v.plainReasons r shelf kept c with
  | nil =>
      cases v.options.placement.isSome && kept.any (resembles r c) with
      | true => exact List.singleton_sublist.2 (by decide)
      | false => exact List.nil_sublist _
  | cons first more =>
      rw [hfound] at hplain
      exact hplain.trans (List.sublist_append_left _ [DropReason.fuzzyDuplicate])

/-! ## One comment after another -/

theorem map_fst_decisions (shelf : Shelf) (kept cs : List Comment) :
    (v.decisions r shelf kept cs).map (·.1) = cs := by
  induction cs generalizing kept with
  | nil => rfl
  | cons c rest ih => rw [decisions, List.map_cons, ih]

/-- **Each comment is decided with those kept before it at hand.** -/
theorem reasons_of_decisions (shelf : Shelf) {kept cs : List Comment}
    {before after : List (Comment × List DropReason)} {c : Comment} {why : List DropReason}
    (h : v.decisions r shelf kept cs = before ++ (c, why) :: after) :
    c ∈ cs ∧ why = v.reasons r shelf (kept ++ keptOf before) c := by
  induction cs generalizing kept before with
  | nil => simp [decisions] at h
  | cons first rest ih =>
      rw [decisions] at h
      cases before with
      | nil =>
          obtain ⟨hc, -⟩ := List.cons.inj h
          obtain ⟨rfl, rfl⟩ := Prod.mk.inj hc
          exact ⟨List.mem_cons_self, by rw [keptOf, List.filter_nil, List.map_nil, List.append_nil]⟩
      | cons d more =>
          obtain ⟨rfl, hrest⟩ := List.cons.inj h
          obtain ⟨hin, hwhy⟩ := ih hrest
          refine ⟨List.mem_cons_of_mem _ hin, hwhy.trans ?_⟩
          -- `first` is among the kept ones for the rest exactly if it is in `keptOf`
          cases hempty : (v.reasons r shelf kept first).isEmpty <;> simp [keptOf, hempty]

/-- A comment that is kept was decided without a reason, with those kept before it at hand. -/
theorem reasons_of_keptOf (shelf : Shelf) {kept cs before after : List Comment} {c : Comment}
    (h : keptOf (v.decisions r shelf kept cs) = before ++ c :: after) :
    c ∈ cs ∧ v.reasons r shelf (kept ++ before) c = [] := by
  obtain ⟨front, back, hkept, hbefore, hback⟩ := List.map_eq_append_iff.1 h
  obtain ⟨front', back', hsplit, hfront, hback'⟩ := List.filter_eq_append_iff.1 hkept
  obtain ⟨⟨c', why⟩, rest, rfl, rfl, -⟩ := List.map_eq_cons_iff.1 hback
  obtain ⟨skipped, others, rfl, hskipped, hwhy, -⟩ := List.filter_eq_cons_iff.1 hback'
  obtain rfl : why = [] := List.isEmpty_iff.1 hwhy
  have hfound : keptOf (front' ++ skipped) = before := by
    have hnone : skipped.filter (·.2.isEmpty) = [] := List.filter_eq_nil_iff.2 hskipped
    rw [keptOf, List.filter_append, hnone, List.append_nil, hfront, hbefore]
  rw [← List.append_assoc] at hsplit
  obtain ⟨hin, hreasons⟩ := v.reasons_of_decisions r shelf hsplit
  exact ⟨hin, hfound ▸ hreasons.symm⟩

/-! ## The filter -/

/-- Whether comments are decided greedily: all of them in order, each with exactly the reasons that
    apply to it, given those before it that are kept. -/
structure IsGreedy (comments : List Comment) (decided : List (Comment × List DropReason)) : Prop where
  all     : decided.map (·.1) = comments
  ordered : ∀ d ∈ decided, d.2.Sublist DropReason.inOrder
  exact   : ∀ before c why after, decided = before ++ (c, why) :: after →
    ∀ reason, reason ∈ why ↔ v.Applies r t root (keptOf before) c reason

/-- Whether a kept comment is answered: as it came, or moved where comments are relocated. -/
def Answers (moved : List Moved) (c answered : Comment) : Prop :=
  answered = c ∨
    v.options.placement.isSome = true ∧ v.options.relocate = true ∧
      ∃ m ∈ moved, m.comment = answered ∧ m.found = ⟨c.file, c.line⟩

/-- The decisions on a shelf that has what the tree has are greedy. -/
theorem isGreedy_decisions {shelf : Shelf} {comments : List Comment}
    (hshelf : ∀ c ∈ comments, t.lines root c.path = .ok (shelf.lines? c.path)) :
    v.IsGreedy r t root comments (v.decisions r shelf [] comments) where
  all := map_fst_decisions v r shelf [] comments
  ordered := by
    rintro ⟨c, why⟩ hd
    obtain ⟨before, after, hsplit⟩ := List.append_of_mem hd
    obtain ⟨-, rfl⟩ := reasons_of_decisions v r shelf hsplit
    exact reasons_sublist v r shelf _ c
  exact := by
    intro before c why after hsplit reason
    obtain ⟨hin, rfl⟩ := reasons_of_decisions v r shelf hsplit
    rw [List.nil_append]
    exact mem_reasons_iff v r t root _ (hshelf c hin) reason

theorem dropped_verdictOn (shelf : Shelf) (comments : List Comment) :
    (v.verdictOn r shelf comments).dropped = droppedOf (v.decisions r shelf [] comments) := by
  rw [verdictOn]
  cases v.options.placement with
  | none => rfl
  | some o => cases v.options.relocate <;> rfl

/-- Where nothing is relocated, the kept comments are answered as they came. -/
theorem kept_verdictOn (hstill : v.options.placement = none ∨ v.options.relocate = false)
    (shelf : Shelf) (comments : List Comment) :
    (v.verdictOn r shelf comments).kept = keptOf (v.decisions r shelf [] comments) ∧
      (v.verdictOn r shelf comments).moved = [] := by
  rw [verdictOn]
  cases hplace : v.options.placement with
  | none => exact ⟨rfl, rfl⟩
  | some o =>
      have hmove : v.options.relocate = false := hstill.resolve_left (by simp [hplace])
      simp only [hmove]
      exact ⟨rfl, rfl⟩

/-- Misplaced comments are looked for among all of them, where comments are placed at all. -/
theorem misplaced_verdictOn (shelf : Shelf) (comments : List Comment) :
    (v.verdictOn r shelf comments).misplaced
      = v.options.placement.elim [] fun o => comments.filterMap (·.misplaced? r o (loaded shelf)) := by
  rw [verdictOn]
  cases v.options.placement with
  | none => rfl
  | some o => cases v.options.relocate <;> rfl

/-- What was found of a comment that moves is where it came from. -/
theorem found_of_relocation {o : PlacementOptions} {files : LoadedFiles} {c : Comment} {m : Moved}
    (h : relocation r o files c = some m) : m.found = ⟨c.file, c.line⟩ := by
  obtain ⟨hmoved, -⟩ := Option.filter_eq_some_iff.1 h
  obtain ⟨found, -, rfl⟩ := Option.map_eq_some_iff.1 hmoved
  rfl

/-- Where comments are relocated, every one is answered for. -/
theorem answers_relocated {o : PlacementOptions} (hplace : v.options.placement = some o)
    (hmove : v.options.relocate = true) (files : LoadedFiles) (kept : List Comment) :
    List.Forall₂ (v.Answers ((kept.map fun c => (c, relocation r o files c)).filterMap (·.2))) kept
      ((kept.map fun c => (c, relocation r o files c)).map fun p => (p.2.map (·.comment)).getD p.1) := by
  rw [List.map_map, List.forall₂_map_right_iff, List.forall₂_same]
  intro c hc
  cases hmoved : relocation r o files c with
  | none => exact .inl (by simp [hmoved])
  | some m =>
      refine .inr ⟨by simp [hplace], hmove, m, ?_, by simp [hmoved], found_of_relocation r hmoved⟩
      exact List.mem_filterMap.2 ⟨_, List.mem_map_of_mem hc, hmoved⟩

/-- Every kept comment is answered for. -/
theorem answers_verdictOn (shelf : Shelf) (comments : List Comment) :
    List.Forall₂ (v.Answers (v.verdictOn r shelf comments).moved)
      (keptOf (v.decisions r shelf [] comments)) (v.verdictOn r shelf comments).kept := by
  have hsame : ∀ (moved : List Moved) (kept : List Comment), List.Forall₂ (v.Answers moved) kept kept :=
    fun moved kept => List.forall₂_same.2 fun c _ => .inl rfl
  rw [verdictOn]
  cases hplace : v.options.placement with
  | none => exact hsame _ _
  | some o =>
      cases hmove : v.options.relocate with
      | false => exact hsame _ _
      | true => exact answers_relocated v r hplace hmove (loaded shelf) _

/-- The files that matter are those of the comments, and the candidates where comments are placed. -/
theorem forall_mem_filesNeeded_iff (comments : List Comment) (P : String → Prop) :
    (∀ path ∈ v.filesNeeded comments, P path) ↔
      (∀ c ∈ comments, P c.path) ∧
        (v.options.placement.isSome = true →
          ∀ file ∈ v.options.candidates, P (Path.normalized file)) := by
  rw [filesNeeded]
  simp only [List.mem_eraseDups, List.map_append, List.map_map, List.mem_append, List.mem_map, or_imp,
    forall_and, forall_exists_index, and_imp, forall_apply_eq_imp_iff₂]
  rw [and_comm]
  cases v.options.placement <;> simp [CommentOf.path]

theorem path_mem_filesNeeded {comments : List Comment} {c : Comment} (hc : c ∈ comments) :
    c.path ∈ v.filesNeeded comments :=
  ((forall_mem_filesNeeded_iff v comments (· ∈ v.filesNeeded comments)).1 fun _ h => h).1 c hc

variable {v r t root} in
/-- An answer is that on the shelf of the files that matter. -/
theorem verdict_eq_ok_iff {comments : List Comment} {d : Verdict} :
    v.verdict r t root comments = .ok d ↔
      ∃ shelf, t.shelf root (v.filesNeeded comments) = .ok shelf ∧ v.verdictOn r shelf comments = d := by
  rw [verdict, bind_eq_ok_iff]
  simp only [pure, Except.pure, Except.ok.injEq]

variable {v r t root} in
/-- There is no answer where those files cannot be put on a shelf. -/
theorem verdict_eq_error_iff {comments : List Comment} {fault : PathFault} :
    v.verdict r t root comments = .error fault ↔
      t.shelf root (v.filesNeeded comments) = .error fault := by
  rw [verdict, bind_eq_error_iff]
  simp [pure, Except.pure]

/-- **Verification is a greedy filter, wherever it has an answer**, and it has one exactly if the path
    of every file that matters can be followed. -/
theorem verdict_isGreedy_iff (comments : List Comment) :
    (∃ d decided, v.verdict r t root comments = .ok d ∧ v.IsGreedy r t root comments decided ∧
        d.dropped = droppedOf decided ∧ List.Forall₂ (v.Answers d.moved) (keptOf decided) d.kept) ↔
      (∀ c ∈ comments, t.IsFollowable root c.path) ∧
        (v.options.placement.isSome = true →
          ∀ file ∈ v.options.candidates, t.IsFollowable root (Path.normalized file)) := by
  rw [← forall_mem_filesNeeded_iff, ← Tree.shelf_isOk_iff]
  rw [verdict]
  constructor
  · rintro ⟨d, -, hd, -⟩
    cases hshelf : t.shelf root (v.filesNeeded comments) with
    | error fault => simp [hshelf, bind, Except.bind] at hd
    | ok shelf => exact ⟨shelf, rfl⟩
  · rintro ⟨shelf, hshelf⟩
    have hlines : ∀ c ∈ comments, t.lines root c.path = .ok (shelf.lines? c.path) := by
      refine fun c hc => Tree.lines_of_shelf t root hshelf ?_
      have hneeded :=
        (forall_mem_filesNeeded_iff v comments (· ∈ v.filesNeeded comments)).1 fun _ h => h
      exact hneeded.1 c hc
    refine ⟨v.verdictOn r shelf comments, v.decisions r shelf [] comments, ?_,
      isGreedy_decisions v r t root hlines, dropped_verdictOn v r shelf comments,
      answers_verdictOn v r shelf comments⟩
    rw [hshelf]
    rfl

/-- A comment whose path holds a zero character stands in no file that can be read, yet it is not
    dropped: there is no answer. -/
theorem verdict_zeroCharacter :
    let v : Verifier := ⟨⟨[], 0, [], 0, none, false, []⟩, []⟩
    let c : Comment := ⟨"a\x00b", 1, .minor, "naming", "Unclear.", "Rename it."⟩
    v.Applies .binary64 .empty [] [] c .invalidLocation ∧
      v.verdict .binary64 .empty [] [c] = .error .zeroCharacter := by
  have hpath : Path.ofText (Path.normalized "a\x00b") = ⟨.here, ["a\x00b"]⟩ := by decide
  have hwalk : Tree.empty.walk Tree.empty.links [] ["a\x00b"] = .zeroCharacter := by
    rw [Tree.walk, if_neg (by decide), if_neg (by decide), if_pos (by decide)]
  have hend : Tree.empty.endOf [] (Path.ofText (Path.normalized "a\x00b")) = .error .zeroCharacter := by
    rw [hpath, Tree.endOf, show Tree.base [] ⟨.here, ["a\x00b"]⟩ = [] from rfl, hwalk]
    rfl
  have hzero : Tree.empty.lines [] (Path.normalized "a\x00b") = .error .zeroCharacter := by
    rw [Tree.lines, Tree.locate, hend]
    rfl
  refine ⟨⟨?_, fun h => absurd h (by decide)⟩, ?_⟩
  · rintro ⟨ls, hls, -⟩
    cases hzero.symm.trans hls
  · refine bind_eq_error_iff.2 (.inl ?_)
    show Tree.empty.shelf [] [Path.normalized "a\x00b"] = _
    rw [Tree.shelf_cons, hzero]
    rfl

end Verifier

end PatchReview
