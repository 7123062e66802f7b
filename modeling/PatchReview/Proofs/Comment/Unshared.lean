import Mathlib
import PatchReview.Proofs.Comment.Relocation
import PatchReview.Proofs.Similarity.Script

/-!
# Comments without a common word

Where all letters are of ASCII, a comment that shares no word with those near it is no duplicate of them.
Letters of other scripts are not read for this check: by the stray words that are left of what two comments
say, one may pass for the other, and comments that have nothing left all say the same
(`duplicate_unshared`).
-/

namespace PatchReview

open PatchReview.Number (Rounding nearestBinary)
open PatchReview.Similarity (HasAsciiLetters SharesNoWord PassesFor)

namespace Verifier

variable (v : Verifier) (t : Tree) (root : Location)

/-- Whether a comment stands near another: in the same file, no more lines away than duplicates may be. -/
def IsNear (k c : Comment) : Prop :=
  k.path = c.path ∧ ((k.line - c.line).natAbs : Int) ≤ v.options.duplicateWindow

theorem applies_duplicate_iff (r : Rounding) (kept : List Comment) (c : Comment) :
    v.Applies r t root kept c .duplicate ↔ ∃ k ∈ kept, v.IsNear k c ∧
      nearestBinary (9 / 10) < Similarity.wordOverlap r k.rationale.toList c.rationale.toList := by
  rw [Applies, and_iff_left fun h => absurd h (by decide)]
  simp only [Fails, IsNear, and_assoc]

section

variable {v t root} {comments : List Comment} {decided before after : List (Comment × List DropReason)}
  {c : Comment} {why : List DropReason}

/-- **A comment that shares no word with those near it is a duplicate if it passes for one of them.** -/
theorem IsGreedy.duplicate_iff (h : v.IsGreedy .binary64 t root comments decided)
    (hsplit : decided = before ++ (c, why) :: after)
    (hunshared : ∀ k ∈ keptOf before, v.IsNear k c →
      SharesNoWord k.rationale.toList c.rationale.toList) :
    .duplicate ∈ why ↔ ∃ k ∈ keptOf before, v.IsNear k c ∧
      PassesFor k.rationale.toList c.rationale.toList := by
  rw [h.exact before c why after hsplit, applies_duplicate_iff]
  refine exists_congr fun k => and_congr_right fun hk => and_congr_right fun hnear => ?_
  exact Similarity.lt_wordOverlap_iff (hunshared k hk hnear)

/-- It passes for none of them where all letters are of ASCII. -/
theorem IsGreedy.not_duplicate (h : v.IsGreedy .binary64 t root comments decided)
    (hsplit : decided = before ++ (c, why) :: after) (hc : HasAsciiLetters c.rationale.toList)
    (hnear : ∀ k ∈ keptOf before, v.IsNear k c →
      SharesNoWord k.rationale.toList c.rationale.toList ∧ HasAsciiLetters k.rationale.toList ∧
        ∃ x ∈ k.rationale.toList, Text.isAlphanumeric x = true) :
    .duplicate ∉ why := by
  rw [h.exact before c why after hsplit, applies_duplicate_iff]
  rintro ⟨k, hk, hkc, hlt⟩
  obtain ⟨hunshared, hkletters, x, hx, hletter⟩ := hnear k hk hkc
  rw [Similarity.wordOverlap_of_ascii hkletters hc hx hletter hunshared] at hlt
  exact absurd hlt (by decide +kernel)

end

/-- **Only letters beyond ASCII make texts without a common word pass for one another.** Such texts overlap
    by more than nine tenths exactly if one passes for the other by what is left of both. Without stray words
    they overlap only if nothing is left of either, and with all letters of ASCII not at all. So wherever
    verification has an answer, a comment that shares no word with those kept near it is dropped as a
    duplicate exactly if it passes for one of them, and never if all letters are of ASCII. -/
theorem duplicate_unshared {comments : List Comment} {d : Verdict}
    (h : v.verdict .binary64 t root comments = .ok d) :
    (∀ a b : List Char, SharesNoWord a b →
      (nearestBinary (9 / 10) < Similarity.wordOverlap .binary64 a b ↔ PassesFor a b) ∧
        (Similarity.strayWords a b = [] → Similarity.wordOverlap .binary64 a b
          = if Similarity.plainWords a = [] ∧ Similarity.plainWords b = [] then 1 else 0) ∧
        (HasAsciiLetters a → HasAsciiLetters b → (∃ x ∈ a, Text.isAlphanumeric x = true) →
          Similarity.wordOverlap .binary64 a b = 0)) ∧
      ∃ decided, v.IsGreedy .binary64 t root comments decided ∧ d.dropped = droppedOf decided ∧
        ∀ before c why after, decided = before ++ (c, why) :: after →
          (∀ k ∈ keptOf before, v.IsNear k c →
            SharesNoWord k.rationale.toList c.rationale.toList) →
          (.duplicate ∈ why ↔ ∃ k ∈ keptOf before, v.IsNear k c ∧
              PassesFor k.rationale.toList c.rationale.toList) ∧
            (HasAsciiLetters c.rationale.toList →
              (∀ k ∈ keptOf before, v.IsNear k c → HasAsciiLetters k.rationale.toList ∧
                ∃ x ∈ k.rationale.toList, Text.isAlphanumeric x = true) →
              .duplicate ∉ why) := by
  constructor
  · intro a b hunshared
    refine ⟨Similarity.lt_wordOverlap_iff hunshared,
      Similarity.wordOverlap_of_strayWords_eq_nil hunshared, ?_⟩
    rintro ha hb ⟨x, hx, hletter⟩
    exact Similarity.wordOverlap_of_ascii ha hb hx hletter hunshared
  · obtain ⟨shelf, hshelf, rfl⟩ := verdict_eq_ok_iff.1 h
    have hgreedy : v.IsGreedy .binary64 t root comments (v.decisions .binary64 shelf [] comments) :=
      isGreedy_decisions v .binary64 t root fun c hc =>
        Tree.lines_of_shelf t root hshelf (path_mem_filesNeeded v hc)
    refine ⟨_, hgreedy, dropped_verdictOn v .binary64 shelf comments, ?_⟩
    intro before c why after hsplit hunshared
    refine ⟨hgreedy.duplicate_iff hsplit hunshared, ?_⟩
    intro hc hnear
    exact hgreedy.not_duplicate hsplit hc fun k hk hkc => ⟨hunshared k hk hkc, hnear k hk hkc⟩

/-- A verifier that looks only for duplicates, on the same line and the next. -/
def duplicateCheck : Verifier := ⟨⟨[], 0, [], 1, none, false, []⟩, []⟩

/-- Two comments on neighbouring lines that say something else. -/
def unlike : List Comment :=
  [⟨"c", 1, .minor, "naming", "cache grows", ""⟩, ⟨"c", 2, .minor, "naming", "name unclear", ""⟩]

theorem verdict_unlike : duplicateCheck.verdict .binary64 twoFiles [] unlike
    = .ok (duplicateCheck.verdictOn .binary64 [("c", some ["x", "y"])] unlike) :=
  verdict_eq_ok_iff.2 ⟨[("c", some ["x", "y"])], by cbv, rfl⟩

theorem letters_unlike : ∀ c ∈ unlike, HasAsciiLetters c.rationale.toList ∧
    ∃ x ∈ c.rationale.toList, Text.isAlphanumeric x = true := by
  have hfirst : HasAsciiLetters "cache grows".toList := by decide +kernel
  have hsecond : HasAsciiLetters "name unclear".toList := by decide +kernel
  rw [unlike, List.forall_mem_cons, List.forall_mem_singleton]
  exact ⟨⟨hfirst, 'c', by decide, by decide⟩, hsecond, 'n', by decide, by decide⟩

theorem sharesNoWord_unlike :
    unlike.Pairwise fun k c => SharesNoWord k.rationale.toList c.rationale.toList := by
  rw [unlike, List.pairwise_pair]
  decide +kernel

/-- Neither of them is a duplicate. -/
theorem duplicate_unshared_unlike :
    ∃ d decided, duplicateCheck.verdict .binary64 twoFiles [] unlike = .ok d ∧
      d.dropped = droppedOf decided ∧ decided.map (·.1) = unlike ∧
      ∀ before c why after, decided = before ++ (c, why) :: after → .duplicate ∉ why := by
  obtain ⟨-, decided, hgreedy, hdropped, hdecided⟩ :=
    duplicate_unshared duplicateCheck twoFiles [] verdict_unlike
  refine ⟨_, decided, verdict_unlike, hdropped, hgreedy.all, ?_⟩
  intro before c why after hsplit
  have hall := hgreedy.all
  rw [hsplit, List.map_append, List.map_cons] at hall
  have hletters := letters_unlike
  have hwords := sharesNoWord_unlike
  rw [← hall, List.forall_mem_append, List.forall_mem_cons] at hletters
  rw [← hall, List.pairwise_append] at hwords
  have hbefore : ∀ k ∈ keptOf before, k ∈ before.map (·.1) := by
    intro k hk
    obtain ⟨decision, hdecision, rfl⟩ := List.mem_map.1 hk
    exact List.mem_map_of_mem (List.mem_filter.1 hdecision).1
  refine (hdecided before c why after hsplit ?_).2 hletters.2.1.1 ?_
  · exact fun k hk _ => hwords.2.2 k (hbefore k hk) c List.mem_cons_self
  · exact fun k hk _ => hletters.1 k (hbefore k hk)

/-- Two comments in another script have nothing left to compare, so the second is dropped as a duplicate of
    the first, though they share no word. -/
theorem duplicate_otherScript :
    let first : Comment := ⟨"c", 1, .minor, "naming", "кэш растёт", ""⟩
    let second : Comment := ⟨"c", 1, .minor, "naming", "имя неясно", ""⟩
    SharesNoWord first.rationale.toList second.rationale.toList ∧
      (∃ x ∈ first.rationale.toList, Text.isAlphanumeric x = true) ∧
      (∃ x ∈ second.rationale.toList, Text.isAlphanumeric x = true) ∧
      Similarity.wordOverlap .binary64 first.rationale.toList second.rationale.toList = 1 ∧
      ∃ d, duplicateCheck.verdict .binary64 twoFiles [] [first, second] = .ok d ∧
        d.dropped = [⟨second, [.duplicate]⟩] := by
  refine ⟨by decide +kernel, ⟨'к', by decide, by decide +kernel⟩, ⟨'и', by decide, by decide +kernel⟩,
    by decide +kernel, _, verdict_eq_ok_iff.2 ⟨[("c", some ["x", "y"])], by cbv, rfl⟩, by decide +kernel⟩

end Verifier

end PatchReview
