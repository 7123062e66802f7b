import Mathlib.Data.List.Basic
import PatchReview.Script.Rule

/-!
# Readings go forward

Whatever the grammar, a rule that is read from a position on leaves marks one after another, each on at
least one character, with the marks inside it between the position and its own end (`IsLaid`). The memo
only holds what was read before, so it is enough that every rule keeps this (`fits_run`).
-/

namespace PatchReview.Script

/-! ## Positions -/

variable {src : Source}

theorem Source.le_takeWhile (src : Source) (test : Nat → Bool) (i : Nat) : i ≤ src.takeWhile test i := by
  fun_induction Source.takeWhile src test i with
  | case1 i hi htest ih => omega
  | case2 i hi htest => exact Nat.le_refl i
  | case3 i hi => exact Nat.le_refl i

theorem lt_of_blockEnd {i k : Nat} (h : blockEnd src i = some k) : i < k := by
  fun_induction blockEnd src i with
  | case1 i hi hzero => cases h
  | case2 i hi hzero hclose =>
      obtain rfl := Option.some.inj h
      omega
  | case3 i hi hzero hclose ih =>
      have hlater := ih h
      omega
  | case4 i hi => cases h

theorem le_of_comment {i k : Nat} (h : comment src i = some k) : i ≤ k := by
  rw [comment] at h
  split at h
  · obtain rfl := Option.some.inj h
    have hlater := src.le_takeWhile (fun c => !endsLineComment c) (i + 2)
    omega
  · split at h
    · have hlater := lt_of_blockEnd h
      omega
    · cases h

theorem le_skip (src : Source) (i : Nat) : i ≤ skip src i := by
  have hfrom : ∀ fuel i, i ≤ skipFrom src fuel i := by
    intro fuel
    induction fuel with
    | zero => exact fun i => Nat.le_refl i
    | succ fuel ih =>
        intro i
        have hfiller := src.le_takeWhile isFiller i
        rw [skipFrom]
        cases hcomment : comment src (src.takeWhile isFiller i) with
        | none => exact hfiller
        | some k => exact Nat.le_trans hfiller (Nat.le_trans (le_of_comment hcomment) (ih k))
  exact hfrom _ i

theorem Rule.tokenEnd_eq_some {read : Reader} {i j : Nat} (h : tokenEnd read src i = some j) :
    i ≤ j ∧ j ≤ src.size := by
  rw [tokenEnd, Option.filter_eq_some_iff] at h
  simpa using h.2

/-! ## Marks -/

variable {lam : Type} {i j k : Nat} {marks more : List (Mark lam)}

/-- Whether marks stand one after another between two positions, each on something, and so do the marks
    inside them. -/
inductive IsLaid : (start stop : Nat) → List (Mark lam) → Prop where
  | nil {i j : Nat} (h : i ≤ j) : IsLaid i j []
  | cons {i start stop j : Nat} {label : lam} {inner rest : List (Mark lam)} (hfrom : i ≤ start)
      (hsome : start < stop) (hinner : IsLaid i stop inner) (hrest : IsLaid stop j rest) :
      IsLaid i j (.mk label start stop inner :: rest)

namespace IsLaid

theorem le (h : IsLaid i j marks) : i ≤ j := by
  induction h with
  | nil h => exact h
  | cons hfrom hsome _ _ _ hrest => omega

/-- They stand after any earlier position too. -/
theorem mono (h : IsLaid j k marks) (hij : i ≤ j) : IsLaid i k marks := by
  induction h with
  | nil h => exact .nil (Nat.le_trans hij h)
  | cons hfrom hsome hinner hrest ihinner _ =>
      exact .cons (Nat.le_trans hij hfrom) hsome (ihinner hij) hrest

/-- So do those of one reading after another. -/
theorem append (h : IsLaid i j marks) (hmore : IsLaid j k more) : IsLaid i k (marks ++ more) := by
  induction h with
  | nil h => exact hmore.mono h
  | cons hfrom hsome hinner _ _ ih => exact .cons hfrom hsome hinner (ih hmore)

/-- The marks inside a mark stand before its end. -/
theorem inner {m : Mark lam} (h : IsLaid i j [m]) : IsLaid i m.stop m.inner ∧ m.stop ≤ j := by
  cases h with
  | cons _ _ hinner hrest => exact ⟨hinner, hrest.le⟩

/-- Marks start one after another, each between the two positions. -/
theorem starts (h : IsLaid i j marks) :
    (marks.map (·.start)).Pairwise (· < ·) ∧ ∀ m ∈ marks, i ≤ m.start ∧ m.start < j := by
  induction h with
  | nil h => exact ⟨List.Pairwise.nil, fun m hm => (nomatch hm)⟩
  | @cons i start stop j label inner rest hfrom hsome hinner hrest _ ih =>
      have hle := hrest.le
      refine ⟨List.pairwise_cons.2 ⟨fun start' hstart' => ?_, ih.1⟩, List.forall_mem_cons.2 ⟨?_, ?_⟩⟩
      · obtain ⟨m, hm, rfl⟩ := List.mem_map.1 hstart'
        exact Nat.lt_of_lt_of_le hsome (ih.2 m hm).1
      · exact ⟨hfrom, Nat.lt_of_lt_of_le hsome hle⟩
      · intro m hm
        have hrange := ih.2 m hm
        exact ⟨by omega, hrange.2⟩

end IsLaid

/-! ## Rules -/

namespace Rule

variable {sig : Type} [BEq sig] [Hashable sig]

/-- Whether what is answered at a position are marks from there on, within the script. -/
def Fits (src : Source) (i : Nat) (answer : Answer lam) : Prop :=
  ∀ j marks, answer = some (j, marks) → IsLaid i j marks ∧ (i ≤ src.size → j ≤ src.size)

theorem fits_none : Fits src i (none : Answer lam) := fun _ _ h => nomatch h

theorem fits_some (h : IsLaid i j marks) (hsize : i ≤ src.size → j ≤ src.size) :
    Fits src i (some (j, marks)) := by
  rintro _ _ ⟨⟩
  exact ⟨h, hsize⟩

theorem fits_here (src : Source) (i : Nat) : Fits src i (some (i, []) : Answer lam) :=
  fits_some (.nil (Nat.le_refl i)) id

/-- What is read next is read on from where the first reading ends. -/
theorem Fits.append {first second : Answer lam} (hfirst : Fits src i first)
    (h : first = some (j, marks)) (hsecond : Fits src j second) (hmore : second = some (k, more)) :
    Fits src i (some (k, marks ++ more)) :=
  fits_some ((hfirst j marks h).1.append (hsecond k more hmore).1)
    fun hi => (hsecond k more hmore).2 ((hfirst j marks h).2 hi)

/-- Whether all that is known of symbols fits. -/
def Remembers (src : Source) (memo : Memo sig lam) : Prop :=
  ∀ (symbol : sig) (i : Nat) (answer : Answer lam), memo[(symbol, i)]? = some answer → Fits src i answer

theorem remembers_empty : Remembers src (∅ : Memo sig lam) := by
  intro symbol i answer h
  rw [Std.HashMap.getElem?_empty] at h
  cases h

theorem Remembers.insert [LawfulBEq sig] {memo : Memo sig lam} (h : Remembers src memo) (symbol : sig)
    {answer : Answer lam} (hanswer : Fits src i answer) :
    Remembers src (memo.insert (symbol, i) answer) := by
  intro symbol' i' answer' h'
  rw [Std.HashMap.getElem?_insert] at h'
  split at h'
  · rename_i heq
    obtain ⟨-, rfl⟩ := Prod.mk.inj (eq_of_beq heq)
    exact Option.some.inj h' ▸ hanswer
  · exact h symbol' i' answer' h'

/-- Whether a reading from a position on fits, and all that is known after it. -/
def Reads (src : Source) (i : Nat) (out : Answer lam × Memo sig lam) : Prop :=
  Fits src i out.1 ∧ Remembers src out.2

theorem fits_token (read : Reader) {i j : Nat} (hij : i ≤ j) :
    Fits src i ((tokenEnd read src j).map (·, []) : Answer lam) := by
  cases hread : tokenEnd read src j with
  | none => exact fits_none
  | some k =>
      obtain ⟨hjk, hk⟩ := tokenEnd_eq_some hread
      exact fits_some (.nil (Nat.le_trans hij hjk)) fun _ => hk

section

variable (grammar : sig → Rule sig lam) (src : Source) {fuel : Nat}

/-- Whether every rule reads forward with some fuel. -/
def ReadsForward (fuel : Nat) : Prop :=
  ∀ (r : Rule sig lam) (i : Nat) (memo : Memo sig lam), Remembers src memo →
    Reads src i (run grammar src fuel r i memo)

variable {grammar src} {memo : Memo sig lam}

/-! One step more of fuel keeps this, rule by rule. -/

theorem ReadsForward.call [LawfulBEq sig] (h : ReadsForward grammar src fuel) (symbol : sig)
    (hmemo : Remembers src memo) : Reads src i (run grammar src (fuel + 1) (.call symbol) i memo) := by
  rw [run]
  cases hknown : memo[(symbol, i)]? with
  | some answer => exact ⟨hmemo symbol i answer hknown, hmemo⟩
  | none =>
      obtain ⟨hanswer, hmemo'⟩ := h (grammar symbol) i memo hmemo
      exact ⟨hanswer, hmemo'.insert symbol hanswer⟩

theorem ReadsForward.seq (h : ReadsForward grammar src fuel) (first second : Rule sig lam)
    (hmemo : Remembers src memo) :
    Reads src i (run grammar src (fuel + 1) (.seq first second) i memo) := by
  have hfirst := h first i memo hmemo
  rw [run]
  generalize run grammar src fuel first i memo = out at hfirst ⊢
  rcases out with ⟨_ | ⟨j, marks⟩, memo'⟩
  · exact ⟨fits_none, hfirst.2⟩
  · have hsecond := h second j memo' hfirst.2
    dsimp only
    generalize run grammar src fuel second j memo' = out' at hsecond ⊢
    rcases out' with ⟨_ | ⟨k, more⟩, memo''⟩
    · exact ⟨fits_none, hsecond.2⟩
    · exact ⟨hfirst.1.append rfl hsecond.1 rfl, hsecond.2⟩

theorem ReadsForward.alt (h : ReadsForward grammar src fuel) (first second : Rule sig lam)
    (hmemo : Remembers src memo) :
    Reads src i (run grammar src (fuel + 1) (.alt first second) i memo) := by
  have hfirst := h first i memo hmemo
  rw [run]
  generalize run grammar src fuel first i memo = out at hfirst ⊢
  rcases out with ⟨_ | answer, memo'⟩
  · exact h second i memo' hfirst.2
  · exact hfirst

theorem ReadsForward.many (h : ReadsForward grammar src fuel) (each : Rule sig lam)
    (hmemo : Remembers src memo) : Reads src i (run grammar src (fuel + 1) (.many each) i memo) := by
  have hfirst := h each i memo hmemo
  rw [run]
  generalize run grammar src fuel each i memo = out at hfirst ⊢
  rcases out with ⟨_ | ⟨j, marks⟩, memo'⟩
  · exact ⟨fits_here src i, hfirst.2⟩
  · by_cases hstill : j ≤ i
    · simp only [if_pos hstill]
      exact ⟨fits_here src i, hfirst.2⟩
    · have hrest := h (.many each) j memo' hfirst.2
      simp only [if_neg hstill]
      generalize run grammar src fuel (.many each) j memo' = out' at hrest ⊢
      rcases out' with ⟨_ | ⟨k, more⟩, memo''⟩
      · exact ⟨hfirst.1, hrest.2⟩
      · exact ⟨hfirst.1.append rfl hrest.1 rfl, hrest.2⟩

/-- Looking ahead reads nothing, whatever is seen. -/
theorem ReadsForward.look (h : ReadsForward grammar src fuel) (rule : Rule sig lam)
    (hmemo : Remembers src memo) : Reads src i (run grammar src (fuel + 1) (.ahead rule) i memo) ∧
      Reads src i (run grammar src (fuel + 1) (.unless rule) i memo) := by
  have hrule := h rule i memo hmemo
  rw [run, run]
  generalize run grammar src fuel rule i memo = out at hrule ⊢
  rcases out with ⟨_ | answer, memo'⟩
  · exact ⟨⟨fits_none, hrule.2⟩, fits_here src i, hrule.2⟩
  · exact ⟨⟨fits_here src i, hrule.2⟩, fits_none, hrule.2⟩

theorem ReadsForward.mark (h : ReadsForward grammar src fuel) (label : lam) (rule : Rule sig lam)
    (hmemo : Remembers src memo) :
    Reads src i (run grammar src (fuel + 1) (.mark label rule) i memo) := by
  have hrule := h rule i memo hmemo
  rw [run]
  generalize run grammar src fuel rule i memo = out at hrule ⊢
  rcases out with ⟨_ | ⟨j, marks⟩, memo'⟩
  · exact ⟨fits_none, hrule.2⟩
  · obtain ⟨hlaid, hsize⟩ := hrule.1 j marks rfl
    by_cases hsome : skip src i < j
    · simp only [if_pos hsome]
      exact ⟨fits_some (.cons (le_skip src i) hsome hlaid (.nil (Nat.le_refl j))) hsize, hrule.2⟩
    · simp only [if_neg hsome]
      exact hrule

end

/-- **Every rule reads forward**, whatever the symbols stand for. -/
theorem reads_run [LawfulBEq sig] (grammar : sig → Rule sig lam) (src : Source) (fuel : Nat) :
    ReadsForward grammar src fuel := by
  induction fuel with
  | zero => exact fun r i memo hmemo => ⟨fits_none, hmemo⟩
  | succ fuel ih =>
      intro r i memo hmemo
      cases r with
      | empty => exact ⟨fits_here src i, hmemo⟩
      | token read => exact ⟨fits_token read (le_skip src i), hmemo⟩
      | raw read => exact ⟨fits_token read (Nat.le_refl i), hmemo⟩
      | test holds =>
          refine ⟨?_, hmemo⟩
          show Fits src i (if holds src i then some (i, []) else none)
          split
          · exact fits_here src i
          · exact fits_none
      | call symbol => exact ih.call symbol hmemo
      | seq first second => exact ih.seq first second hmemo
      | alt first second => exact ih.alt first second hmemo
      | many each => exact ih.many each hmemo
      | ahead rule => exact (ih.look rule hmemo).1
      | «unless» rule => exact (ih.look rule hmemo).2
      | mark label rule => exact ih.mark label rule hmemo

end Rule

end PatchReview.Script
