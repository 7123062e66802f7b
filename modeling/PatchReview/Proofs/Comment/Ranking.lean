import Mathlib.Data.List.Pairwise
import PatchReview.Proofs.Comment.Loading

/-!
# Where a comment is placed

Of all loaded lines those that are like enough to what a comment says are ranked, and the first of them is
suggested (`placement_ranked`). `IsRanking` says what a ranking is without sorting: the same lines, from
the best to the worst, equally good ones in the order in which they were found. A suggestion is the first
of the best of all lines, so neither the number of matches that are kept nor a lower threshold shows in it,
and of lines that are loaded later only a better one changes it.
-/

namespace PatchReview

/-! ## Rankings -/

section

variable {α : Type} {score : α → Rat} {items more : List α} {a m : α}

/-- Whether a list is the ranking of some items: the same items, from the best to the worst, those that
    score alike in the order in which they were. -/
structure IsRanking (score : α → Rat) (items ranked : List α) : Prop where
  perm       : ranked.Perm items
  descending : ranked.Pairwise fun a b => score b ≤ score a
  stable     : ∀ q, ranked.filter (score · = q) = items.filter (score · = q)

/-- **The best first is the ranking.** -/
theorem isRanking_bestFirst (score : α → Rat) (items : List α) :
    IsRanking score items (bestFirst score items) where
  perm := List.mergeSort_perm _ _
  descending :=
    (List.pairwise_mergeSort (noWorse_trans score) (noWorse_total score) items).imp of_decide_eq_true
  stable := by
    intro q
    have hscore : ∀ a ∈ items.filter (score · = q), score a = q := by
      intro a ha
      exact of_decide_eq_true (List.mem_filter.1 ha).2
    -- those that score alike are in order already, so they stay a part of the list
    have halike : (items.filter (score · = q)).Pairwise fun a b => decide (score b ≤ score a) = true := by
      refine List.pairwise_of_forall_mem_list fun a ha b hb => ?_
      rw [hscore a ha, hscore b hb]
      exact decide_eq_true (Rat.le_refl)
    have hpart : (items.filter (score · = q)).Sublist (bestFirst score items) :=
      List.sublist_mergeSort (noWorse_trans score) (noWorse_total score) halike List.filter_sublist
    have hwithin := hpart.filter (score · = q)
    simp only [List.filter_filter, Bool.and_self] at hwithin
    refine (hwithin.eq_of_length ?_).symm
    exact (((List.mergeSort_perm items _).filter _).length_eq).symm

/-- Lists that have the same items with each score have the same items. -/
theorem mem_of_filter_eq {l l' : List α} (hsame : ∀ q, l.filter (score · = q) = l'.filter (score · = q))
    (ha : a ∈ l) : a ∈ l' := by
  have hin : a ∈ l.filter (score · = score a) := List.mem_filter.2 ⟨ha, decide_eq_true rfl⟩
  rw [hsame] at hin
  exact (List.mem_filter.1 hin).1

/-- From the best to the worst there is one list that has given items with each score. -/
theorem eq_of_descending {l l' : List α} (h : l.Pairwise fun a b => score b ≤ score a)
    (h' : l'.Pairwise fun a b => score b ≤ score a)
    (hsame : ∀ q, l.filter (score · = q) = l'.filter (score · = q)) : l = l' := by
  induction l generalizing l' with
  | nil =>
      refine (List.eq_nil_iff_forall_not_mem.2 fun x hx => ?_).symm
      exact List.not_mem_nil (mem_of_filter_eq (fun q => (hsame q).symm) hx)
  | cons a rest ih =>
      obtain ⟨ha, hrest⟩ := List.pairwise_cons.1 h
      have hin : a ∈ l' := mem_of_filter_eq hsame List.mem_cons_self
      cases l' with
      | nil => cases hin
      | cons b rest' =>
          obtain ⟨hb, hrest'⟩ := List.pairwise_cons.1 h'
          have hin' : b ∈ a :: rest := mem_of_filter_eq (fun q => (hsame q).symm) List.mem_cons_self
          -- each of the two comes first in its list, so neither scores better than the other
          have hscore : score b = score a := by
            rcases List.mem_cons.1 hin with rfl | hin
            · rfl
            · rcases List.mem_cons.1 hin' with rfl | hin'
              · rfl
              · exact Rat.le_antisymm (ha b hin') (hb a hin)
          obtain ⟨rfl, -⟩ := List.cons.inj (by simpa [hscore] using hsame (score a))
          refine congrArg (a :: ·) (ih hrest hrest' fun q => ?_)
          have hq := hsame q
          rw [List.filter_cons, List.filter_cons] at hq
          split at hq
          · exact (List.cons.inj hq).2
          · exact hq

/-- **There is one ranking.** -/
theorem IsRanking.eq {ranked ranked' : List α} (h : IsRanking score items ranked)
    (h' : IsRanking score items ranked') : ranked = ranked' :=
  eq_of_descending h.descending h'.descending fun q => (h.stable q).trans (h'.stable q).symm

/-- What is left of a ranking is the ranking of what is left. -/
theorem IsRanking.filter {ranked : List α} (h : IsRanking score items ranked) (p : α → Bool) :
    IsRanking score (items.filter p) (ranked.filter p) where
  perm := h.perm.filter p
  descending := h.descending.filter p
  stable := by
    intro q
    have hcomm : ∀ l : List α, (l.filter p).filter (score · = q) = (l.filter (score · = q)).filter p := by
      intro l
      rw [List.filter_filter, List.filter_filter]
      exact List.filter_congr fun _ _ => Bool.and_comm _ _
    rw [hcomm, h.stable, hcomm]

/-- In a ranking, those that score alike stand as they did. -/
theorem IsRanking.pairwise {ranked : List α} {R : α → α → Prop} (h : IsRanking score items ranked)
    (hR : items.Pairwise R) :
    ranked.Pairwise fun a b => score b < score a ∨ score a = score b ∧ R a b := by
  rw [List.pairwise_iff_forall_sublist]
  intro a b hab
  have hle : score b ≤ score a := List.pairwise_iff_forall_sublist.1 h.descending hab
  rcases Rat.le_iff_lt_or_eq.1 hle with hlt | heq
  · exact .inl hlt
  · refine .inr ⟨heq.symm, ?_⟩
    -- the two are neighbours among those with their score, which stand as they did
    have hboth : [a, b].filter (score · = score a) = [a, b] := by simp [heq]
    have hin := hab.filter (score · = score a)
    rw [hboth, h.stable] at hin
    exact List.pairwise_iff_forall_sublist.1 hR (hin.trans List.filter_sublist)

/-! ## The first of the best -/

theorem IsFirstBest.le (h : IsFirstBest score items m) (ha : a ∈ items) : score a ≤ score m := by
  obtain ⟨before, after, rfl, hbefore, hafter⟩ := h
  rcases List.mem_append.1 ha with hin | hin
  · exact Rat.le_of_lt (hbefore a hin)
  · rcases List.mem_cons.1 hin with rfl | hin
    · exact Rat.le_refl
    · exact hafter a hin

/-- Where there are items, one of them is the first of the best. -/
theorem exists_isFirstBest (score : α → Rat) (h : a ∈ items) : ∃ m, IsFirstBest score items m := by
  cases hhead : (bestFirst score items).head? with
  | none =>
      rw [List.head?_eq_none_iff] at hhead
      have hin : a ∈ bestFirst score items := List.mem_mergeSort.2 h
      rw [hhead] at hin
      cases hin
  | some m => exact ⟨m, head?_bestFirst_iff.1 hhead⟩

/-- The first of the best stays so if nothing better comes after it. -/
theorem IsFirstBest.append (h : IsFirstBest score items m) (hmore : ∀ x ∈ more, score x ≤ score m) :
    IsFirstBest score (items ++ more) m := by
  obtain ⟨before, after, rfl, hbefore, hafter⟩ := h
  exact ⟨before, after ++ more, by rw [List.append_assoc, List.cons_append], hbefore,
    List.forall_mem_append.2 ⟨hafter, hmore⟩⟩

end

/-! ## Options -/

/-- Whether options ask for a likeness at all and keep at least one match. -/
structure PlacementOptions.IsValid (o : PlacementOptions) : Prop where
  minConfidence_pos : 0 < o.minConfidence
  maxMatches_pos    : 0 < o.maxMatches

/-- **Options that can be read are valid.** -/
theorem PlacementOptions.isValid_of_ofRecord {j : Json} {o : PlacementOptions}
    (h : ofRecord j = .ok o) : o.IsValid := by
  refine ⟨?_, maxMatches_pos_of_ofRecord h⟩
  obtain ⟨k, hfields⟩ := Record.exists_of_record h
  obtain ⟨_, _, hfirst, -, rfl⟩ := Record.Checked.seq_eq_ok_iff.1 hfields
  obtain ⟨_, most, hsecond, -, rfl⟩ := Record.Checked.seq_eq_ok_iff.1 hfirst
  obtain ⟨least, hleast, rfl⟩ := Record.Checked.map_eq_ok_iff.1 hsecond
  exact Record.of_withDefault (P := fun least => 0 < least) hleast (by decide +kernel)
    fun _ _ => Record.pos_of_share

/-! ## Suggestions -/

namespace Comment

variable {r : Number.Rounding} {o o' : PlacementOptions} {files new : LoadedFiles} {c : Comment}
  {m : LineMatch}

/-- A line is suggested exactly if one is like enough. -/
theorem isSome_suggested_iff (hmost : 0 < o.maxMatches) :
    (c.placement r o files).suggested.isSome = true ↔
      ∃ l ∈ files.allLines (c.likeness r), o.minConfidence ≤ l.score := by
  rw [Option.isSome_iff_exists]
  simp only [suggested_eq_some_iff hmost]
  constructor
  · rintro ⟨m, hbest, hleast⟩
    exact ⟨m, hbest.mem, hleast⟩
  · rintro ⟨l, hl, hleast⟩
    obtain ⟨m, hbest⟩ := exists_isFirstBest (·.score) hl
    exact ⟨m, hbest, Rat.le_trans hleast (hbest.le hl)⟩

/-- How sure a suggestion is; without one, not at all. -/
theorem confidence_eq : (c.placement r o files).confidence
    = ((c.placement r o files).suggested.map (·.score)).getD 0 := rfl

theorem confidence_of_some (h : (c.placement r o files).suggested = some m) :
    (c.placement r o files).confidence = m.score := by
  rw [confidence_eq, h]
  rfl

theorem confidence_of_none (h : (c.placement r o files).suggested = none) :
    (c.placement r o files).confidence = 0 := by
  rw [confidence_eq, h]
  rfl

/-- What is shown beside a suggestion is the beginning of the ranking. -/
theorem exists_ranking_context (hmost : 0 < o.maxMatches) :
    ∃ ranked, IsRanking (·.score)
        ((files.allLines (c.likeness r)).filter (o.minConfidence ≤ ·.score)) ranked ∧
      (c.placement r o files).context
        = if o.withContext then ranked.take o.maxMatches.toNat else [] := by
  refine ⟨_, isRanking_bestFirst _ _, ?_⟩
  show (if o.withContext = true then
    takeBounded o.maxMatches (files.search (c.likeness r) o.minConfidence) else []) = _
  rw [takeBounded, if_pos (Int.le_of_lt hmost), LoadedFiles.search_eq]

/-- With a higher threshold the suggestion is the same, or there is none. -/
theorem suggested_of_le (hmost : 0 < o.maxMatches) (hmost' : 0 < o'.maxMatches)
    (h : o.minConfidence ≤ o'.minConfidence) :
    (c.placement r o' files).suggested = (c.placement r o files).suggested ∨
      (c.placement r o' files).suggested = none := by
  cases hsuggested : (c.placement r o' files).suggested with
  | none => exact .inr rfl
  | some m =>
      obtain ⟨hbest, hleast⟩ := (suggested_eq_some_iff hmost').1 hsuggested
      exact .inl ((suggested_eq_some_iff hmost).2 ⟨hbest, Rat.le_trans h hleast⟩).symm

/-- The suggestion depends on the threshold alone. -/
theorem suggested_congr (hmost : 0 < o.maxMatches) (hmost' : 0 < o'.maxMatches)
    (h : o'.minConfidence = o.minConfidence) :
    (c.placement r o' files).suggested = (c.placement r o files).suggested := by
  apply Option.ext
  intro m
  rw [suggested_eq_some_iff hmost, suggested_eq_some_iff hmost', IsBestMatch, IsBestMatch, h]

/-! ## Files that are loaded later -/

/-- The lines of further files come after the others. -/
theorem allLines_append (score : String → Rat) :
    LoadedFiles.allLines score (files ++ new) = files.allLines score ++ new.allLines score :=
  List.flatMap_append

/-- Further files never make a suggestion less sure. -/
theorem confidence_le_append (ho : o.IsValid) :
    (c.placement r o files).confidence ≤ (c.placement r o (files ++ new)).confidence := by
  cases hbefore : (c.placement r o files).suggested with
  | none =>
      rw [confidence_of_none hbefore]
      cases hafter : (c.placement r o (files ++ new)).suggested with
      | none => exact (confidence_of_none hafter).symm ▸ Rat.le_refl
      | some m =>
          rw [confidence_of_some hafter]
          have hleast := ((suggested_eq_some_iff ho.maxMatches_pos).1 hafter).2
          exact Rat.le_trans (Rat.le_of_lt ho.minConfidence_pos) hleast
  | some m =>
      obtain ⟨hbest, hleast⟩ := (suggested_eq_some_iff ho.maxMatches_pos).1 hbefore
      -- the line that was suggested is still there, so a line is suggested that is at least as good
      have hin : m ∈ LoadedFiles.allLines (c.likeness r) (files ++ new) := by
        rw [allLines_append]
        exact List.mem_append_left _ hbest.mem
      obtain ⟨m', hafter⟩ := Option.isSome_iff_exists.1
        ((isSome_suggested_iff ho.maxMatches_pos).2 ⟨m, hin, hleast⟩)
      rw [confidence_of_some hbefore, confidence_of_some hafter]
      exact ((suggested_eq_some_iff ho.maxMatches_pos).1 hafter).1.le hin

/-- Further files leave the suggestion as it is, unless one of their lines is like enough and better. -/
theorem suggested_append_iff (ho : o.IsValid) :
    (c.placement r o (files ++ new)).suggested = (c.placement r o files).suggested ↔
      ∀ l ∈ new.allLines (c.likeness r), o.minConfidence ≤ l.score →
        l.score ≤ (c.placement r o files).confidence := by
  constructor
  · intro hsame l hl hleast
    have hin : l ∈ LoadedFiles.allLines (c.likeness r) (files ++ new) := by
      rw [allLines_append]
      exact List.mem_append_right _ hl
    obtain ⟨m, hafter⟩ := Option.isSome_iff_exists.1
      ((isSome_suggested_iff ho.maxMatches_pos).2 ⟨l, hin, hleast⟩)
    rw [confidence_of_some (hsame.symm.trans hafter)]
    exact ((suggested_eq_some_iff ho.maxMatches_pos).1 hafter).1.le hin
  · intro hnew
    cases hbefore : (c.placement r o files).suggested with
    | none =>
        rw [confidence_of_none hbefore] at hnew
        rw [← Option.not_isSome_iff_eq_none, isSome_suggested_iff ho.maxMatches_pos]
        rintro ⟨l, hl, hleast⟩
        rw [allLines_append] at hl
        rcases List.mem_append.1 hl with hold | hadded
        · -- a line that is like enough would have been suggested before
          have hsome := (isSome_suggested_iff ho.maxMatches_pos).2 ⟨l, hold, hleast⟩
          rw [hbefore] at hsome
          cases hsome
        · exact absurd (hnew l hadded hleast)
            (Rat.not_le.2 (Std.lt_of_lt_of_le ho.minConfidence_pos hleast))
    | some m =>
        rw [confidence_of_some hbefore] at hnew
        obtain ⟨hbest, hleast⟩ := (suggested_eq_some_iff ho.maxMatches_pos).1 hbefore
        refine (suggested_eq_some_iff ho.maxMatches_pos).2 ⟨?_, hleast⟩
        rw [allLines_append]
        refine hbest.append fun l hl => ?_
        by_cases hl' : o.minConfidence ≤ l.score
        · exact hnew l hl hl'
        · exact Rat.le_trans (Rat.le_of_lt (Rat.not_le.1 hl')) hleast

/-- **A comment is placed at the first of the lines most like it.** A line is suggested exactly if one is
    like enough; it is the first of the best of all lines; and what is shown beside it is the beginning of
    the ranking of those that are like enough. Other options than the threshold do not show in the
    suggestion, and a higher threshold leaves it or removes it. Files that are loaded later never make it
    less sure, and change it only if they have a line that is like enough and better. -/
theorem placement_ranked (r : Number.Rounding) (ho : o.IsValid) (files : LoadedFiles) (c : Comment) :
    ((c.placement r o files).suggested.isSome = true ↔
        ∃ l ∈ files.allLines (c.likeness r), o.minConfidence ≤ l.score) ∧
      (∀ m, (c.placement r o files).suggested = some m →
        IsFirstBest (·.score) (files.allLines (c.likeness r)) m ∧
          (c.placement r o files).confidence = m.score) ∧
      (∃ ranked, IsRanking (·.score)
          ((files.allLines (c.likeness r)).filter (o.minConfidence ≤ ·.score)) ranked ∧
        (c.placement r o files).context
          = if o.withContext then ranked.take o.maxMatches.toNat else []) ∧
      (∀ o' : PlacementOptions, o'.IsValid → o'.minConfidence = o.minConfidence →
        (c.placement r o' files).suggested = (c.placement r o files).suggested) ∧
      (∀ o' : PlacementOptions, o'.IsValid → o.minConfidence ≤ o'.minConfidence →
        (c.placement r o' files).suggested = (c.placement r o files).suggested ∨
          (c.placement r o' files).suggested = none) ∧
      ∀ t root names, ∃ new, (LoadedFiles.load t root files names).1 = files ++ new ∧
        (c.placement r o files).confidence ≤ (c.placement r o (files ++ new)).confidence ∧
        ((c.placement r o (files ++ new)).suggested = (c.placement r o files).suggested ↔
          ∀ l ∈ LoadedFiles.allLines (c.likeness r) new, o.minConfidence ≤ l.score →
            l.score ≤ (c.placement r o files).confidence) := by
  refine ⟨isSome_suggested_iff ho.maxMatches_pos, ?_, exists_ranking_context ho.maxMatches_pos, ?_, ?_,
    ?_⟩
  · intro m hsuggested
    exact ⟨((suggested_eq_some_iff ho.maxMatches_pos).1 hsuggested).1, confidence_of_some hsuggested⟩
  · intro o' ho' hsame
    exact suggested_congr ho.maxMatches_pos ho'.maxMatches_pos hsame
  · intro o' ho' hle
    exact suggested_of_le ho.maxMatches_pos ho'.maxMatches_pos hle
  · intro t root names
    obtain ⟨new, hnew, -⟩ := LoadedFiles.exists_append_of_load t root files names
    exact ⟨new, hnew, confidence_le_append ho, suggested_append_iff ho⟩

/-- Two lines of one file and one of another. -/
def threeLines : LoadedFiles := [("a", ["x", "y"]), ("b", ["y"])]

/-- A comment that says what two of them say. -/
def saying : Comment := ⟨"b", 1, .minor, "naming", "y", ""⟩

theorem allLines_threeLines : threeLines.allLines (saying.likeness .binary64)
    = [⟨"a", 1, "x", 0⟩] ++ ⟨"a", 2, "y", 1⟩ :: [⟨"b", 1, "y", 1⟩] := by
  decide +kernel

theorem suggested_saying :
    (saying.placement .binary64 .usual threeLines).suggested = some ⟨"a", 2, "y", 1⟩ :=
  (suggested_eq_some_iff (by decide)).2
    ⟨⟨_, _, allLines_threeLines, by decide +kernel, by decide +kernel⟩, by decide +kernel⟩

/-- Of the two the one that was loaded first is suggested. -/
theorem placement_ranked_threeLines :
    PlacementOptions.usual.IsValid ∧
      (saying.placement .binary64 .usual threeLines).suggested = some ⟨"a", 2, "y", 1⟩ ∧
      IsFirstBest (·.score) (threeLines.allLines (saying.likeness .binary64)) ⟨"a", 2, "y", 1⟩ ∧
      (saying.placement .binary64 .usual threeLines).confidence = 1 := by
  have hvalid : PlacementOptions.usual.IsValid :=
    PlacementOptions.isValid_of_ofRecord (j := .object []) rfl
  have hplaced := (placement_ranked .binary64 hvalid threeLines saying).2.1 _ suggested_saying
  exact ⟨hvalid, suggested_saying, hplaced.1, hplaced.2⟩

end Comment

end PatchReview
