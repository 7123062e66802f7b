import PatchReview.Comment.Placement
import PatchReview.Proofs.Record

/-!
# The best match of a comment

A comment is placed at the first of the lines that are most like what it says, if that line is like it
enough (`suggested_eq_some_iff`). Sorting and the number of matches that are kept do not show in it:
the sort keeps equally good matches in the order in which they were found, and at least one match is
kept.
-/

namespace PatchReview

/-! ## The first of the best -/

/-- Being no worse carries over. -/
theorem noWorse_trans {α : Type} (score : α → Rat) (a b c : α)
    (hab : decide (score b ≤ score a) = true) (hbc : decide (score c ≤ score b) = true) :
    decide (score c ≤ score a) = true :=
  decide_eq_true (Rat.le_trans (of_decide_eq_true hbc) (of_decide_eq_true hab))

/-- Of two items one is no worse than the other. -/
theorem noWorse_total {α : Type} (score : α → Rat) (a b : α) :
    (decide (score b ≤ score a) || decide (score a ≤ score b)) = true := by
  simpa using Rat.le_total

section

variable {α : Type} {score : α → Rat} {items : List α} {m : α}

/-- Whether an item is the first of those that score best. -/
def IsFirstBest (score : α → Rat) (items : List α) (m : α) : Prop :=
  ∃ before after, items = before ++ m :: after ∧
    (∀ x ∈ before, score x < score m) ∧ ∀ x ∈ after, score x ≤ score m

theorem IsFirstBest.mem (h : IsFirstBest score items m) : m ∈ items := by
  obtain ⟨before, after, rfl, -, -⟩ := h
  exact List.mem_append_right _ List.mem_cons_self

/-- An item in front is the first of the best, or it scores less than the one that is. -/
theorem isFirstBest_cons_iff {a : α} :
    IsFirstBest score (a :: items) m ↔
      (m = a ∧ ∀ x ∈ items, score x ≤ score a) ∨ (score a < score m ∧ IsFirstBest score items m) := by
  constructor
  · rintro ⟨before, after, hitems, hbefore, hafter⟩
    cases before with
    | nil =>
        obtain ⟨rfl, rfl⟩ := List.cons.inj hitems
        exact .inl ⟨rfl, hafter⟩
    | cons first before =>
        obtain ⟨rfl, rfl⟩ := List.cons.inj hitems
        obtain ⟨hfirst, hbefore⟩ := List.forall_mem_cons.1 hbefore
        exact .inr ⟨hfirst, before, after, rfl, hbefore, hafter⟩
  · rintro (⟨rfl, hless⟩ | ⟨hless, before, after, rfl, hbefore, hafter⟩)
    · exact ⟨[], items, rfl, fun x hx => (nomatch hx), hless⟩
    · exact ⟨a :: before, after, rfl, List.forall_mem_cons.2 ⟨hless, hbefore⟩, hafter⟩

/-- **Sorting puts the first of the best in front.** -/
theorem head?_bestFirst_iff : (bestFirst score items).head? = some m ↔ IsFirstBest score items m := by
  rw [bestFirst]
  induction items generalizing m with
  | nil =>
      constructor
      · intro h
        simp at h
      · rintro ⟨before, after, hitems, -⟩
        simp at hitems
  | cons a rest ih =>
      obtain ⟨l₁, l₂, hall, hrest, hbetter⟩ :=
        List.mergeSort_cons (noWorse_trans score) (noWorse_total score) a rest
      have hsorted :=
        List.pairwise_mergeSort (noWorse_trans score) (noWorse_total score) (a :: rest)
      have hmem : ∀ x ∈ rest, x ∈ l₁ ++ l₂ := by
        intro x hx
        rw [← hrest]
        exact List.mem_mergeSort.2 hx
      rw [hall] at hsorted ⊢
      have hbest : (l₁ ++ l₂).head? = some m ↔ IsFirstBest score rest m := hrest ▸ ih
      rw [isFirstBest_cons_iff, ← hbest]
      cases l₁ with
      | nil =>
          -- nothing scores better than `a`, which comes first
          have hless : ∀ x ∈ rest, score x ≤ score a := fun x hx =>
            of_decide_eq_true ((List.pairwise_cons.1 hsorted).1 x (hmem x hx))
          constructor
          · intro h
            exact .inl ⟨(Option.some.inj h).symm, hless⟩
          · rintro (⟨rfl, -⟩ | ⟨hm, hhead⟩)
            · rfl
            · have hin : m ∈ rest := List.mem_mergeSort.1 (hrest ▸ List.mem_of_mem_head? hhead)
              exact absurd (hless m hin) (Rat.not_le.2 hm)
      | cons b better =>
          -- `b` scores better than `a` and comes first without it, too
          have hb : score a < score b := Rat.not_le.1 (by simpa using hbetter b List.mem_cons_self)
          constructor
          · intro h
            obtain rfl : b = m := Option.some.inj h
            exact .inr ⟨hb, rfl⟩
          · rintro (⟨rfl, hless⟩ | ⟨-, hhead⟩)
            · have hin : b ∈ rest := List.mem_mergeSort.1 (by rw [hrest]; exact List.mem_cons_self)
              exact absurd (hless b hin) (Rat.not_le.2 hb)
            · exact hhead

/-- Leaving out what scores too little leaves the first of the best, if that scores enough. -/
theorem isFirstBest_filter_iff {least : Rat} :
    IsFirstBest score (items.filter (least ≤ score ·)) m ↔
      IsFirstBest score items m ∧ least ≤ score m := by
  induction items with
  | nil =>
      have hnone : ¬IsFirstBest score [] m := fun h => nomatch h.mem
      exact ⟨fun h => absurd h hnone, fun h => absurd h.1 hnone⟩
  | cons a rest ih =>
      by_cases ha : least ≤ score a
      · rw [List.filter_cons, if_pos (decide_eq_true ha), isFirstBest_cons_iff, isFirstBest_cons_iff, ih]
        have hall : (∀ x ∈ rest.filter (least ≤ score ·), score x ≤ score a) ↔
            ∀ x ∈ rest, score x ≤ score a := by
          constructor
          · intro h x hx
            by_cases hleast : least ≤ score x
            · exact h x (List.mem_filter.2 ⟨hx, decide_eq_true hleast⟩)
            · exact Rat.le_trans (Rat.le_of_lt (Rat.not_le.1 hleast)) ha
          · exact fun h x hx => h x (List.mem_filter.1 hx).1
        rw [hall]
        constructor
        · rintro (⟨rfl, hless⟩ | ⟨hm, hbest, hleast⟩)
          · exact ⟨.inl ⟨rfl, hless⟩, ha⟩
          · exact ⟨.inr ⟨hm, hbest⟩, hleast⟩
        · rintro ⟨⟨rfl, hless⟩ | ⟨hm, hbest⟩, hleast⟩
          · exact .inl ⟨rfl, hless⟩
          · exact .inr ⟨hm, hbest, hleast⟩
      · rw [List.filter_cons, if_neg (by simpa using ha), ih, isFirstBest_cons_iff]
        constructor
        · rintro ⟨hbest, hleast⟩
          have hlow : score a < score m := Rat.not_le.1 fun h => ha (Rat.le_trans hleast h)
          exact ⟨.inr ⟨hlow, hbest⟩, hleast⟩
        · rintro ⟨⟨rfl, -⟩ | ⟨-, hbest⟩, hleast⟩
          · exact absurd hleast ha
          · exact ⟨hbest, hleast⟩

end

/-! ## The lines of loaded files -/

namespace LoadedFiles

/-- The lines of files with their scores, file by file and line by line. -/
def allLines (score : String → Rat) (files : LoadedFiles) : List LineMatch :=
  files.flatMap fun f => f.2.mapIdx fun n content => ⟨f.1, n + 1, content, score content⟩

theorem search_eq (score : String → Rat) (least : Rat) (files : LoadedFiles) :
    files.search score least
      = bestFirst (·.score) ((files.allLines score).filter (least ≤ ·.score)) := by
  rw [search, allLines, List.filter_flatMap]
  rfl

/-- A line of the files is the line of a file at its number. -/
theorem exists_file_of_mem_allLines {score : String → Rat} {files : LoadedFiles} {m : LineMatch}
    (h : m ∈ files.allLines score) :
    ∃ lines, (m.file, lines) ∈ files ∧ 1 ≤ m.line ∧ m.line ≤ lines.length := by
  obtain ⟨⟨file, lines⟩, hfile, hline⟩ := List.mem_flatMap.1 h
  obtain ⟨n, hn, rfl⟩ := List.mem_mapIdx.1 hline
  exact ⟨lines, hfile, Nat.le_add_left 1 n, hn⟩

end LoadedFiles

theorem head?_takeBounded {α : Type} {bound : Int} (h : 0 < bound) (items : List α) :
    (takeBounded bound items).head? = items.head? := by
  have hpos : bound.toNat ≠ 0 := by omega
  rw [takeBounded, if_pos (Int.le_of_lt h), List.head?_take, if_neg hpos]

theorem mem_of_mem_takeBounded {α : Type} {bound : Int} {items : List α} {a : α}
    (h : a ∈ takeBounded bound items) : a ∈ items := by
  rw [takeBounded] at h
  split at h
  · exact List.mem_of_mem_take h
  · exact List.mem_of_mem_take h

/-- Options that can be read keep at least one match. -/
theorem PlacementOptions.maxMatches_pos_of_ofRecord {j : Json} {o : PlacementOptions}
    (h : ofRecord j = .ok o) : 0 < o.maxMatches := by
  obtain ⟨k, hfields⟩ := Record.exists_of_record h
  obtain ⟨_, _, hfirst, -, rfl⟩ := Record.Checked.seq_eq_ok_iff.1 hfields
  obtain ⟨_, most, hleast, hmost, rfl⟩ := Record.Checked.seq_eq_ok_iff.1 hfirst
  obtain ⟨least, -, rfl⟩ := Record.Checked.map_eq_ok_iff.1 hleast
  exact Record.of_withDefault hmost (by decide) fun _ _ => Record.lt_of_integerAbove

namespace Comment

/-- Whether a loaded line is the best match of a comment: the first of the lines most like what the
    comment says, and like it enough. -/
def IsBestMatch (r : Number.Rounding) (o : PlacementOptions) (files : LoadedFiles) (c : Comment)
    (m : LineMatch) : Prop :=
  IsFirstBest (·.score) (files.allLines (c.likeness r)) m ∧ o.minConfidence ≤ m.score

/-- **A comment is placed at its best match.** -/
theorem suggested_eq_some_iff {r : Number.Rounding} {o : PlacementOptions} (hmost : 0 < o.maxMatches)
    {files : LoadedFiles} {c : Comment} {m : LineMatch} :
    (c.placement r o files).suggested = some m ↔ c.IsBestMatch r o files m := by
  show (takeBounded o.maxMatches (files.search (c.likeness r) o.minConfidence)).head? = some m ↔ _
  rw [head?_takeBounded hmost, LoadedFiles.search_eq, head?_bestFirst_iff, isFirstBest_filter_iff]
  rfl

end Comment

end PatchReview
