import Mathlib
import PatchReview.Proofs.Similarity.Subsequence
import PatchReview.Similarity.Score

/-!
# Shares that texts have in common

The likeness of two texts is a share, the same either way round, and whole only for equal texts
(`likeness_eq_one_iff`). The windows of a text are its parts of the shorter text's length and its shorter
parts at either end (`mem_windowParts_iff`). A window that is shorter is not equal, so the best share of a
window is whole exactly if the shorter text is a part of the longer (`partialLikeness_eq_one_iff`).
-/

namespace PatchReview.Similarity

/-! ## Shares -/

/-- Whether a number is a share: no less than nothing, and no more than all. -/
structure IsShare (part : Rat) : Prop where
  nonneg : 0 ≤ part
  le_one : part ≤ 1

theorem isShare_zero : IsShare 0 := ⟨le_rfl, zero_le_one⟩

theorem isShare_one : IsShare 1 := ⟨zero_le_one, le_rfl⟩

theorem isShare_sharedPart {length total : Nat} (h : 2 * length ≤ total) :
    IsShare (sharedPart length total) := by
  rw [sharedPart]
  by_cases htotal : total = 0
  · rw [if_pos htotal]
    exact isShare_one
  · rw [if_neg htotal]
    exact ⟨by positivity, div_le_one_of_le₀ (by exact_mod_cast h) (Nat.cast_nonneg total)⟩

theorem sharedPart_eq_one_iff {length total : Nat} (h : 2 * length ≤ total) :
    sharedPart length total = 1 ↔ 2 * length = total := by
  rw [sharedPart]
  by_cases htotal : total = 0
  · rw [if_pos htotal]
    exact iff_of_true rfl (by omega)
  · rw [if_neg htotal, div_eq_one_iff_eq (Nat.cast_ne_zero.2 htotal), Nat.cast_inj]

section

variable (a b : List Char)

theorem likeness_eq : likeness a b = sharedPart (common a b) (a.length + b.length) := by
  rw [likeness, commonLength_eq]

theorem two_mul_common_le : 2 * common a b ≤ a.length + b.length := by
  have hleft := common_le_left a b
  have hright := common_le_right a b
  omega

theorem isShare_likeness : IsShare (likeness a b) :=
  likeness_eq a b ▸ isShare_sharedPart (two_mul_common_le a b)

theorem likeness_comm : likeness a b = likeness b a := by
  rw [likeness_eq, likeness_eq, common_comm, Nat.add_comm]

theorem likeness_reverse : likeness a.reverse b.reverse = likeness a b := by
  rw [likeness_eq, likeness_eq, common_reverse, List.length_reverse, List.length_reverse]

end

/-- **Only equal texts are wholly alike.** -/
theorem likeness_eq_one_iff {a b : List Char} : likeness a b = 1 ↔ a = b := by
  rw [likeness_eq, sharedPart_eq_one_iff (two_mul_common_le a b)]
  constructor
  · intro h
    have hleft := common_le_left a b
    have hright := common_le_right a b
    exact eq_of_common_eq (by omega) (by omega)
  · rintro rfl
    rw [common_self]
    omega

/-! ## The best of some shares -/

theorem larger_eq_max (p q : Rat) : larger p q = max p q := (max_def p q).symm

section

variable {parts parts' : List Rat} {q : Rat}

theorem best_le_iff : best parts ≤ q ↔ 0 ≤ q ∧ ∀ p ∈ parts, p ≤ q := by
  have hfold : ∀ m : Rat, parts.foldl larger m ≤ q ↔ m ≤ q ∧ ∀ p ∈ parts, p ≤ q := by
    induction parts with
    | nil => intro m; simp
    | cons p rest ih =>
        intro m
        rw [List.foldl_cons, ih, larger_eq_max, max_le_iff, List.forall_mem_cons, and_assoc]
  exact hfold 0

theorem best_mem : best parts ∈ 0 :: parts := by
  have hfold : ∀ m : Rat, parts.foldl larger m ∈ m :: parts := by
    induction parts with
    | nil => exact fun m => List.mem_cons_self
    | cons p rest ih =>
        intro m
        rw [List.foldl_cons, larger_eq_max]
        rcases List.mem_cons.1 (ih (max m p)) with heq | hin
        · rw [heq]
          rcases max_choice m p with hm | hp
          · rw [hm]
            exact List.mem_cons_self
          · rw [hp]
            exact List.mem_cons_of_mem _ List.mem_cons_self
        · exact List.mem_cons_of_mem _ (List.mem_cons_of_mem _ hin)
  exact hfold 0

/-- The best of some shares is enough exactly if one of them is. -/
theorem le_best_iff (hpos : 0 < q) : q ≤ best parts ↔ ∃ p ∈ parts, q ≤ p := by
  constructor
  · intro hle
    rcases List.mem_cons.1 (best_mem : best parts ∈ 0 :: parts) with hzero | hin
    · rw [hzero] at hle
      exact absurd hle (not_le.2 hpos)
    · exact ⟨_, hin, hle⟩
  · rintro ⟨p, hp, hle⟩
    exact hle.trans ((best_le_iff.1 le_rfl).2 p hp)

theorem isShare_best (h : ∀ p ∈ parts, IsShare p) : IsShare (best parts) where
  nonneg := (best_le_iff.1 le_rfl).1
  le_one := best_le_iff.2 ⟨zero_le_one, fun p hp => (h p hp).le_one⟩

/-- The best of some shares is whole exactly if one of them is. -/
theorem best_eq_one_iff (h : ∀ p ∈ parts, IsShare p) : best parts = 1 ↔ 1 ∈ parts := by
  constructor
  · intro hbest
    rcases List.mem_cons.1 (hbest ▸ best_mem : (1 : Rat) ∈ 0 :: parts) with hzero | hin
    · exact absurd hzero one_ne_zero
    · exact hin
  · intro hin
    exact le_antisymm (isShare_best h).le_one ((best_le_iff.1 le_rfl).2 1 hin)

/-- Which shares there are decides, and not their order. -/
theorem best_congr (h : ∀ p, p ∈ parts ↔ p ∈ parts') : best parts = best parts' := by
  refine eq_of_forall_ge_iff fun q => ?_
  simp only [best_le_iff, h]

end

/-! ## Windows -/

/-- Whether a text is a window of another: a part of that length, or a shorter part at one of the ends. -/
inductive IsWindow (size : Nat) (text : List Char) : List Char → Prop where
  | full {t : List Char} (hpart : t <:+: text) (hsize : t.length = size) : IsWindow size text t
  | first {t : List Char} (hne : t ≠ []) (hpart : t <+: text) (hsize : t.length < size) : IsWindow size text t
  | last {t : List Char} (hne : t ≠ []) (hpart : t <:+ text) (hsize : t.length < size) : IsWindow size text t

theorem mem_fullWindows_iff {size : Nat} {text t : List Char} :
    t ∈ fullWindows size text ↔ t <:+: text ∧ t.length = size := by
  rw [fullWindows, List.mem_map]
  constructor
  · rintro ⟨start, hstart, rfl⟩
    rw [List.mem_range] at hstart
    refine ⟨((List.take_prefix _ _).isInfix).trans (List.drop_suffix _ _).isInfix, ?_⟩
    rw [List.length_take, List.length_drop]
    omega
  · rintro ⟨⟨before, after, rfl⟩, rfl⟩
    refine ⟨before.length, ?_, ?_⟩
    · rw [List.mem_range, List.length_append, List.length_append]
      omega
    · rw [List.append_assoc, List.drop_left, List.take_left]

/-- The shares of a text with the tails of another. -/
theorem mem_mapIdx_commonTails_iff {short ending : List Char} {p : Rat} :
    p ∈ (commonTails short ending).mapIdx (fun n length =>
        sharedPart length (short.length + (ending.length - n))) ↔
      ∃ t, t ≠ [] ∧ t <:+ ending ∧ p = likeness short t := by
  induction ending with
  | nil =>
      refine iff_of_false List.not_mem_nil ?_
      rintro ⟨t, hne, htail, -⟩
      exact hne (List.suffix_nil.1 htail)
  | cons c rest ih =>
      have hshift : ∀ n length, sharedPart length (short.length + ((c :: rest).length - (n + 1)))
          = sharedPart length (short.length + (rest.length - n)) := by
        intro n length
        rw [List.length_cons, Nat.add_sub_add_right]
      simp only [commonTails_cons, List.mapIdx_cons, List.mem_cons, hshift, ih, Nat.sub_zero, ← likeness_eq]
      constructor
      · rintro (rfl | ⟨t, hne, htail, rfl⟩)
        · exact ⟨c :: rest, List.cons_ne_nil _ _, List.suffix_rfl, rfl⟩
        · exact ⟨t, hne, htail.trans (List.suffix_cons c rest), rfl⟩
      · rintro ⟨t, hne, htail, rfl⟩
        rcases List.suffix_cons_iff.1 htail with rfl | hrest
        · exact .inl rfl
        · exact .inr ⟨t, hne, hrest, rfl⟩

theorem mem_endParts_iff {short text : List Char} {p : Rat} :
    p ∈ endParts short text ↔
      ∃ t, t ≠ [] ∧ t <:+ text ∧ t.length < short.length ∧ p = likeness short t := by
  refine mem_mapIdx_commonTails_iff.trans ?_
  constructor
  · rintro ⟨t, hne, htail, hp⟩
    have hpos := List.length_pos_iff.2 hne
    have hlength := htail.length_le
    rw [List.length_drop] at hlength
    exact ⟨t, hne, htail.trans (List.drop_suffix _ _), by omega, hp⟩
  · rintro ⟨t, hne, htail, hlength, hp⟩
    have hlonger := htail.length_le
    refine ⟨t, hne, List.suffix_of_suffix_length_le htail (List.drop_suffix _ _) ?_, hp⟩
    rw [List.length_drop]
    omega

/-- **The shares of a text with all windows of another.** -/
theorem mem_windowParts_iff {short text : List Char} {p : Rat} :
    p ∈ windowParts short text ↔ ∃ t, IsWindow short.length text t ∧ p = likeness short t := by
  rw [windowParts, List.mem_append, List.mem_append, List.mem_map, mem_endParts_iff, mem_endParts_iff]
  constructor
  · rintro ((⟨t, ht, rfl⟩ | ⟨t, hne, htail, hlength, rfl⟩) | ⟨t, hne, htail, hlength, rfl⟩)
    · obtain ⟨hpart, hsize⟩ := mem_fullWindows_iff.1 ht
      exact ⟨t, .full hpart hsize, rfl⟩
    · exact ⟨t, .last hne htail hlength, rfl⟩
    -- a part at the end of the text turned round is one at the start
    · refine ⟨t.reverse, .first (mt List.reverse_eq_nil_iff.1 hne) ?_ ?_, ?_⟩
      · rwa [← List.reverse_suffix, List.reverse_reverse]
      · rwa [List.length_reverse] at hlength ⊢
      · rw [← likeness_reverse, List.reverse_reverse]
  · rintro ⟨t, ht, rfl⟩
    cases ht with
    | full hpart hsize => exact .inl (.inl ⟨t, mem_fullWindows_iff.2 ⟨hpart, hsize⟩, rfl⟩)
    | last hne htail hlength => exact .inl (.inr ⟨t, hne, htail, hlength, rfl⟩)
    | first hne hhead hlength =>
        refine .inr ⟨t.reverse, mt List.reverse_eq_nil_iff.1 hne, List.reverse_suffix.2 hhead, ?_, ?_⟩
        · rwa [List.length_reverse, List.length_reverse]
        · rw [likeness_reverse]

theorem isShare_of_mem_windowParts {short text : List Char} : ∀ p ∈ windowParts short text, IsShare p := by
  intro p hp
  obtain ⟨t, -, rfl⟩ := mem_windowParts_iff.1 hp
  exact isShare_likeness short t

/-- One share is whole exactly if the text is a part of the other. -/
theorem one_mem_windowParts_iff {short text : List Char} : 1 ∈ windowParts short text ↔ short <:+: text := by
  rw [mem_windowParts_iff]
  constructor
  · rintro ⟨t, ht, hone⟩
    obtain rfl := likeness_eq_one_iff.1 hone.symm
    cases ht with
    | full hpart hsize => exact hpart
    | first hne hpart hsize => exact hpart.isInfix
    | last hne hpart hsize => exact hpart.isInfix
  · intro hpart
    exact ⟨short, .full hpart rfl, (likeness_eq_one_iff.2 rfl).symm⟩

section

variable (a b : List Char)

theorem isShare_partialLikeness : IsShare (partialLikeness a b) := by
  rw [partialLikeness]
  split
  · exact isShare_best isShare_of_mem_windowParts
  · split
    · exact isShare_best isShare_of_mem_windowParts
    · exact isShare_best (List.forall_mem_append.2 ⟨isShare_of_mem_windowParts, isShare_of_mem_windowParts⟩)

theorem partialLikeness_comm : partialLikeness a b = partialLikeness b a := by
  rw [partialLikeness, partialLikeness]
  rcases Nat.lt_trichotomy a.length b.length with hlt | heq | hgt
  · rw [if_pos hlt, if_neg (Nat.lt_asymm hlt), if_pos hlt]
  · rw [if_neg (Nat.not_lt.2 heq.ge), if_neg (Nat.not_lt.2 heq.le), if_neg (Nat.not_lt.2 heq.le),
      if_neg (Nat.not_lt.2 heq.ge)]
    refine best_congr fun p => ?_
    rw [List.mem_append, List.mem_append, or_comm]
  · rw [if_neg (Nat.lt_asymm hgt), if_pos hgt, if_pos hgt]

/-- **The best share is whole exactly if one text is a part of the other.** -/
theorem partialLikeness_eq_one_iff : partialLikeness a b = 1 ↔ a <:+: b ∨ b <:+: a := by
  rw [partialLikeness]
  by_cases hlt : a.length < b.length
  · rw [if_pos hlt, best_eq_one_iff isShare_of_mem_windowParts, one_mem_windowParts_iff]
    refine (or_iff_left ?_).symm
    intro hpart
    exact Nat.not_lt.2 hpart.length_le hlt
  · by_cases hgt : b.length < a.length
    · rw [if_neg hlt, if_pos hgt, best_eq_one_iff isShare_of_mem_windowParts, one_mem_windowParts_iff]
      refine (or_iff_right ?_).symm
      intro hpart
      exact Nat.not_lt.2 hpart.length_le hgt
    · rw [if_neg hlt, if_neg hgt,
        best_eq_one_iff (List.forall_mem_append.2 ⟨isShare_of_mem_windowParts, isShare_of_mem_windowParts⟩),
        List.mem_append, one_mem_windowParts_iff, one_mem_windowParts_iff]

end

end PatchReview.Similarity
