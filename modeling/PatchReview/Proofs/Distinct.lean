import Mathlib.Data.List.Nodup

/-!
# Each once, by first use

A list without repetition has its items in the order of their first uses (`pairwise_idxOf_eraseDups`). It
has each of them once (`nodup_eraseDups`), a list that had them so stays as it is (`eraseDups_eq_self`), a
further item comes last or not at all (`eraseDups_concat`), and a search finds in it what it finds in the
whole list (`findSome?_eraseDups`).
-/

namespace PatchReview

/-- What is listed once keeps the order of its first uses, also where only some of it is listed. -/
theorem pairwise_idxOf_eraseDups {α : Type} [BEq α] [LawfulBEq α] (p : α → Bool) (l : List α) :
    (l.filter p).eraseDups.Pairwise fun a b => l.idxOf a < l.idxOf b := by
  induction l generalizing p with
  | nil => exact List.Pairwise.nil
  | cons x rest ih =>
      -- past `x` every index is one more, as long as `x` itself is not listed
      have hlater : ∀ q : α → Bool, q x = false →
          ((rest.filter q).eraseDups).Pairwise fun a b => (x :: rest).idxOf a < (x :: rest).idxOf b := by
        intro q hq
        have hne : ∀ a ∈ (rest.filter q).eraseDups, x ≠ a := by
          rintro a ha rfl
          rw [(List.mem_filter.1 (List.mem_eraseDups.1 ha)).2] at hq
          exact nomatch hq
        refine (ih q).imp_of_mem fun {a b} ha hb hab => ?_
        rw [List.idxOf_cons_ne _ (hne a ha), List.idxOf_cons_ne _ (hne b hb)]
        exact Nat.succ_lt_succ hab
      by_cases hp : p x = true
      · rw [List.filter_cons_of_pos hp, List.eraseDups_cons, List.filter_filter]
        refine List.pairwise_cons.2 ⟨fun b hb => ?_, hlater _ (by simp)⟩
        have hne : x ≠ b := by
          rintro rfl
          simp at hb
        rw [List.idxOf_cons_self, List.idxOf_cons_ne _ hne]
        exact Nat.succ_pos _
      · rw [List.filter_cons_of_neg hp]
        exact hlater p (by simpa using hp)

theorem nodup_eraseDups {α : Type} [BEq α] [LawfulBEq α] (l : List α) : l.eraseDups.Nodup := by
  have hpairwise := pairwise_idxOf_eraseDups (fun _ => true) l
  rw [List.filter_true] at hpairwise
  exact hpairwise.imp fun {a b} hlt heq => absurd hlt (by rw [heq]; exact Nat.lt_irrefl _)

theorem eraseDups_eq_self {α : Type} [DecidableEq α] {l : List α} (h : l.Nodup) :
    l.eraseDups = l := by
  induction l with
  | nil => rfl
  | cons x rest ih =>
      obtain ⟨hx, hrest⟩ := List.nodup_cons.1 h
      have hkept : (rest.filter fun b => !b == x) = rest :=
        List.filter_eq_self.2 fun b hb => by simpa using fun heq : b = x => hx (heq ▸ hb)
      rw [List.eraseDups_cons, hkept, ih hrest]

/-- One item more is listed at the end, unless it was used before. -/
theorem eraseDups_concat {α : Type} [DecidableEq α] (l : List α) (a : α) :
    (l ++ [a]).eraseDups = if a ∈ l then l.eraseDups else l.eraseDups ++ [a] := by
  rw [List.eraseDups_append]
  by_cases ha : a ∈ l
  · rw [if_pos ha]
    simp [List.removeAll, ha]
  · rw [if_neg ha]
    simp [List.removeAll, ha, List.eraseDups_cons]

/-- What a search passes over may be left out, and so may what it has looked at before. -/
theorem findSome?_eraseDups_filter {α β : Type} [DecidableEq α] (find : α → Option β) {p : α → Bool}
    (hp : ∀ a, p a = false → find a = none) (l : List α) :
    ((l.filter p).eraseDups).findSome? find = l.findSome? find := by
  induction l generalizing p with
  | nil => rfl
  | cons x rest ih =>
      by_cases hx : p x = true
      · rw [List.filter_cons_of_pos hx, List.eraseDups_cons, List.findSome?_cons, List.findSome?_cons,
          List.filter_filter]
        cases hfind : find x with
        | some b => rfl
        | none =>
            -- nothing is found at `x`, so its later uses may be left out too
            refine ih fun a ha => ?_
            rw [Bool.and_eq_false_iff] at ha
            rcases ha with hsame | hout
            · rw [Bool.not_eq_false', beq_iff_eq] at hsame
              rw [hsame, hfind]
            · exact hp a hout
      · rw [List.filter_cons_of_neg hx, List.findSome?_cons, hp x (by simpa using hx)]
        exact ih hp

/-- A search finds the same without repetitions. -/
theorem findSome?_eraseDups {α β : Type} [DecidableEq α] (find : α → Option β) (l : List α) :
    l.eraseDups.findSome? find = l.findSome? find := by
  have hall := findSome?_eraseDups_filter find (p := fun _ => true) (fun _ h => nomatch h) l
  rwa [List.filter_true] at hall

end PatchReview
