import Mathlib
import PatchReview.Chunk

/-!
# Packing hunks into chunks

The chunks of a file are its hunks cut into groups: consecutive ones, none of them empty, each within
the budget or a single hunk (`IsCut`). They hold every hunk once and in order (`IsPacking`), and no
other way of cutting has fewer groups (`ofDiff_isPacking`).

A chunk is kept open as long as the next hunk fits. So at every hunk the chunks closed so far are no
more than the groups of any other cut, and where they are as many, the open chunk is no heavier than
the group that the other cut is in (`length_groups_le`).
-/

namespace PatchReview

/-- What hunks cost together. -/
def Hunk.cost (hunks : List Hunk) : Int := (hunks.map fun h => (h.tokens : Int)).sum

namespace Hunk

@[simp] theorem cost_nil : cost [] = 0 := rfl

@[simp] theorem cost_cons (h : Hunk) (hunks : List Hunk) :
    cost (h :: hunks) = h.tokens + cost hunks := by
  simp [cost]

@[simp] theorem cost_append (before after : List Hunk) :
    cost (before ++ after) = cost before + cost after := by
  simp [cost]

theorem cost_nonneg (hunks : List Hunk) : 0 ≤ cost hunks := by
  induction hunks with
  | nil => exact Int.le_refl 0
  | cons h rest ih =>
      rw [cost_cons]
      omega

end Hunk

namespace Chunk

open Hunk (cost)

variable (budget : Int)

/-! ## Cutting hunks into groups -/

/-- Whether hunks are cut into groups that may be chunks: consecutive ones, none of them empty, each
    within the budget or a single hunk. -/
structure IsCut (hunks : List Hunk) (groups : List (List Hunk)) : Prop where
  whole  : groups.flatten = hunks
  filled : ∀ g ∈ groups, g ≠ []
  fits   : ∀ g ∈ groups, cost g ≤ budget ∨ g.length = 1

/-- The groups that are packed, `current` being the one that is open. -/
def groups (current : List Hunk) : List Hunk → List (List Hunk)
  | [] => [current]
  | h :: rest =>
    if cost current + h.tokens > budget then current :: groups [h] rest
    else groups (current ++ [h]) rest

theorem isCut_groups (current rest : List Hunk) (hne : current ≠ [])
    (hfits : cost current ≤ budget ∨ current.length = 1) :
    IsCut budget (current ++ rest) (groups budget current rest) := by
  induction rest generalizing current with
  | nil => exact ⟨by simp [groups], by simpa [groups] using hne, by simpa [groups] using hfits⟩
  | cons h rest ih =>
      rw [groups]
      by_cases hover : cost current + h.tokens > budget
      · -- `current` is closed as it stands, and `h` alone opens the next group
        rw [if_pos hover]
        have hmore := ih [h] (List.cons_ne_nil h []) (.inr rfl)
        refine ⟨?_, List.forall_mem_cons.2 ⟨hne, hmore.filled⟩,
          List.forall_mem_cons.2 ⟨hfits, hmore.fits⟩⟩
        rw [List.flatten_cons, hmore.whole]
        rfl
      · rw [if_neg hover]
        have hmore := ih (current ++ [h]) (by simp) (.inl (by simp; omega))
        rwa [List.append_assoc, List.singleton_append] at hmore

/-- A cut starts with a group that starts with the first hunk. -/
theorem IsCut.exists_cons {h : Hunk} {rest : List Hunk} {gs : List (List Hunk)}
    (hcut : IsCut budget (h :: rest) gs) :
    ∃ taken after more, gs = (h :: taken) :: more ∧ rest = taken ++ after ∧
      (taken = [] ∨ h.tokens + cost taken ≤ budget) ∧ IsCut budget after more := by
  obtain ⟨hwhole, hfilled, hfits⟩ := hcut
  cases gs with
  | nil => exact nomatch hwhole
  | cons group more =>
      obtain ⟨hgroup, hmoreFilled⟩ := List.forall_mem_cons.1 hfilled
      obtain ⟨hgroupFits, hmoreFits⟩ := List.forall_mem_cons.1 hfits
      cases group with
      | nil => exact absurd rfl hgroup
      | cons first taken =>
          obtain ⟨rfl, hrest⟩ := List.cons.inj hwhole
          refine ⟨taken, more.flatten, more, rfl, hrest.symm, ?_, rfl, hmoreFilled, hmoreFits⟩
          rcases hgroupFits with hfit | hone
          · exact .inr (by simpa using hfit)
          · exact .inl (by simpa using hone)

/-- **Packing is ahead of every other cut.** The other cut is in a group that costs `weight` so far and
    takes in the hunks `taken` next; then it has the groups `others`. Packing is ahead of it by `lead`
    groups, or its own open group is no heavier. -/
theorem length_groups_le (current : List Hunk) (lead : Nat) {rest taken after : List Hunk}
    {others : List (List Hunk)} {weight : Int} (hrest : rest = taken ++ after)
    (hcut : IsCut budget after others) (hweight : 0 ≤ weight)
    (hahead : cost current ≤ weight ∨ 1 ≤ lead)
    (htaken : taken = [] ∨ weight + cost taken ≤ budget) :
    (groups budget current rest).length ≤ 1 + lead + others.length := by
  induction rest generalizing current taken after others weight lead with
  | nil =>
      rw [groups, List.length_singleton]
      omega
  | cons h rest ih =>
      rw [groups]
      cases taken with
      | cons first taken =>
          -- the other cut takes `h` into its group, and so does packing where it is no heavier
          obtain ⟨rfl, htail⟩ := List.cons.inj hrest
          have hfit : weight + (h.tokens + cost taken) ≤ budget := by simpa using htaken
          have hmore := Hunk.cost_nonneg taken
          have htaken' : taken = [] ∨ weight + h.tokens + cost taken ≤ budget := .inr (by omega)
          by_cases hover : cost current + h.tokens > budget
          · rw [if_pos hover, List.length_cons]
            -- the chunk closes, so it was heavier than the other group: the lead pays for it
            have hlead : 1 ≤ lead := by omega
            have := ih [h] (lead - 1) htail hcut (by omega) (.inl (by simp; omega)) htaken'
            omega
          · rw [if_neg hover]
            have hlight : cost (current ++ [h]) ≤ weight + h.tokens ∨ 1 ≤ lead :=
              hahead.imp_left fun hlight => by simpa using hlight
            exact ih (current ++ [h]) lead htail hcut (by omega) hlight htaken'
      | nil =>
          -- the other cut starts a group with `h`: packing does so as well, or gets further ahead
          obtain rfl : h :: rest = after := hrest
          obtain ⟨taken, after, others, rfl, htail, htaken', hmore⟩ := hcut.exists_cons
          rw [List.length_cons]
          by_cases hover : cost current + h.tokens > budget
          · rw [if_pos hover, List.length_cons]
            have := ih [h] lead htail hmore (by omega) (.inl (by simp)) htaken'
            omega
          · rw [if_neg hover]
            have := ih (current ++ [h]) (lead + 1) htail hmore (by omega) (.inr (by omega)) htaken'
            omega

/-! ## Groups as chunks -/

/-- The positions of `n` hunks, the first at `start`. -/
def positions (start n : Nat) : List Int := (List.range' start n).map fun i : Nat => (i : Int)

@[simp] theorem positions_one (start : Nat) : positions start 1 = [(start : Int)] := rfl

@[simp] theorem length_positions (start n : Nat) : (positions start n).length = n := by
  simp [positions]

theorem positions_add (start m n : Nat) :
    positions start (m + n) = positions start m ++ positions (start + m) n := by
  rw [positions, positions, positions, ← List.map_append, List.range'_append_1]

/-- Groups of hunks as the chunks of a file, the first hunk at position `start`. -/
def ofGroups (file : String) (start : Nat) : List (List Hunk) → List Chunk
  | [] => []
  | g :: more => ⟨file, positions start g.length, cost g⟩ :: ofGroups file (start + g.length) more

/-- Packing hunks gives the chunks of the packed groups. -/
theorem pack_eq (file : String) (start : Nat) (current rest : List Hunk) :
    pack budget ⟨file, positions start current.length, cost current⟩ (start + current.length) rest
      = ofGroups file start (groups budget current rest) := by
  induction rest generalizing start current with
  | nil => rfl
  | cons h rest ih =>
      rw [pack, groups]
      by_cases hover : cost current + h.tokens > budget
      · rw [if_pos hover, if_pos hover, ofGroups, ← ih (start + current.length) [h]]
        simp
      · rw [if_neg hover, if_neg hover, ← ih start (current ++ [h])]
        simp [positions_add, Nat.add_assoc]

@[simp] theorem length_ofGroups (file : String) (start : Nat) (gs : List (List Hunk)) :
    (ofGroups file start gs).length = gs.length := by
  induction gs generalizing start with
  | nil => rfl
  | cons g more ih => rw [ofGroups, List.length_cons, List.length_cons, ih]

theorem flatMap_indices_ofGroups (file : String) (start : Nat) (gs : List (List Hunk)) :
    (ofGroups file start gs).flatMap (·.indices) = positions start gs.flatten.length := by
  induction gs generalizing start with
  | nil => rfl
  | cons g more ih =>
      rw [ofGroups, List.flatMap_cons, ih, List.flatten_cons, List.length_append, positions_add]

theorem hunkAt_eq_ok_iff {hunks : List Hunk} {n : Nat} {h : Hunk} :
    hunkAt hunks (n : Int) = .ok h ↔ hunks[n]? = some h := by
  have hpos : ¬(n : Int) < 0 := by omega
  rw [hunkAt]
  simp only [hpos, if_false, Int.toNat_natCast]
  cases hunks[n]? <;> simp

/-- The hunks at the positions of a stretch of hunks are that stretch. -/
theorem mapM_hunkAt_positions (before group after : List Hunk) :
    (positions before.length group.length).mapM (hunkAt (before ++ group ++ after)) = .ok group := by
  induction group generalizing before with
  | nil => rfl
  | cons h rest ih =>
      have hfirst : hunkAt (before ++ (h :: rest) ++ after) (before.length : Int) = .ok h :=
        hunkAt_eq_ok_iff.2 (by simp)
      have hrest := ih (before ++ [h])
      rw [List.length_append, List.length_singleton, List.append_assoc before [h],
        List.singleton_append] at hrest
      rw [List.length_cons, Nat.add_comm rest.length, positions_add, positions_one,
        List.singleton_append, List.mapM_cons, hfirst, hrest]
      rfl

/-- Each of the chunks is one of the groups, at the positions of its hunks. -/
theorem exists_group_of_mem_ofGroups (before : List Hunk) {file : String} {gs : List (List Hunk)}
    {c : Chunk} (h : c ∈ ofGroups file before.length gs) :
    ∃ g ∈ gs, c.file = file ∧ c.tokens = cost g ∧ c.indices.length = g.length ∧
      c.indices.mapM (hunkAt (before ++ gs.flatten)) = .ok g := by
  induction gs generalizing before with
  | nil => exact nomatch h
  | cons g more ih =>
      rw [ofGroups] at h
      rcases List.mem_cons.1 h with rfl | hmore
      · refine ⟨g, List.mem_cons_self, rfl, rfl, length_positions _ _, ?_⟩
        rw [List.flatten_cons, ← List.append_assoc]
        exact mapM_hunkAt_positions before g more.flatten
      · rw [← List.length_append] at hmore
        obtain ⟨group, hgroup, hfile, htokens, hlength, hhunks⟩ := ih (before ++ g) hmore
        refine ⟨group, List.mem_cons_of_mem g hgroup, hfile, htokens, hlength, ?_⟩
        rwa [List.flatten_cons, ← List.append_assoc]

/-! ## The chunks of a diff -/

/-- Whether chunks hold the hunks of a file: every one once and in order, none of the chunks empty,
    each at the cost of its hunks and within the budget or of a single hunk. -/
structure IsPacking (f : FileChange) (chunks : List Chunk) : Prop where
  own    : ∀ c ∈ chunks, c.file = f.path
  whole  : chunks.flatMap (·.indices) = (List.range f.hunks.length).map fun i : Nat => (i : Int)
  filled : ∀ c ∈ chunks, c.indices ≠ []
  priced : ∀ c ∈ chunks, ∃ hunks, c.indices.mapM (hunkAt f.hunks) = .ok hunks ∧ c.tokens = cost hunks
  fits   : ∀ c ∈ chunks, c.tokens ≤ budget ∨ c.indices.length = 1

/-- The groups that the hunks of a file are packed into. -/
def groupsOf : List Hunk → List (List Hunk)
  | [] => []
  | h :: rest => groups budget [h] rest

theorem isCut_groupsOf (hunks : List Hunk) : IsCut budget hunks (groupsOf budget hunks) := by
  cases hunks with
  | nil => exact ⟨rfl, by simp [groupsOf], by simp [groupsOf]⟩
  | cons h rest => exact isCut_groups budget [h] rest (List.cons_ne_nil h []) (.inr rfl)

theorem length_groupsOf_le {hunks : List Hunk} {others : List (List Hunk)}
    (hcut : IsCut budget hunks others) : (groupsOf budget hunks).length ≤ others.length := by
  cases hunks with
  | nil => exact Nat.zero_le _
  | cons h rest =>
      obtain ⟨taken, after, others, rfl, hrest, htaken, hmore⟩ := hcut.exists_cons
      -- both start with `h`, so neither is ahead
      have := length_groups_le budget [h] 0 hrest hmore (Int.natCast_nonneg _) (.inl (by simp)) htaken
      rw [groupsOf, List.length_cons]
      omega

theorem ofFile_eq (f : FileChange) :
    ofFile budget f = ofGroups f.path 0 (groupsOf budget f.hunks) := by
  rw [ofFile]
  cases hhunks : f.hunks with
  | nil => rfl
  | cons h rest =>
      have hpack := pack_eq budget f.path 0 [h] rest
      simpa [groupsOf] using hpack

theorem isPacking_ofFile (f : FileChange) : IsPacking budget f (ofFile budget f) := by
  obtain ⟨hwhole, hfilled, hfits⟩ := isCut_groupsOf budget f.hunks
  have hgroup : ∀ c ∈ ofFile budget f, ∃ g ∈ groupsOf budget f.hunks, c.file = f.path ∧
      c.tokens = cost g ∧ c.indices.length = g.length ∧ c.indices.mapM (hunkAt f.hunks) = .ok g := by
    intro c hc
    rw [ofFile_eq] at hc
    have := exists_group_of_mem_ofGroups [] hc
    rwa [List.nil_append, hwhole] at this
  refine ⟨?_, ?_, ?_, ?_, ?_⟩
  · intro c hc
    obtain ⟨g, -, hfile, -⟩ := hgroup c hc
    exact hfile
  · rw [ofFile_eq, flatMap_indices_ofGroups, hwhole, positions, List.range_eq_range']
  · intro c hc hnone
    obtain ⟨g, hg, -, -, hlength, -⟩ := hgroup c hc
    rw [hnone] at hlength
    exact hfilled g hg (List.length_eq_zero_iff.1 hlength.symm)
  · intro c hc
    obtain ⟨g, -, -, htokens, -, hhunks⟩ := hgroup c hc
    exact ⟨g, hhunks, htokens⟩
  · intro c hc
    obtain ⟨g, hg, -, htokens, hlength, -⟩ := hgroup c hc
    rw [htokens, hlength]
    exact hfits g hg

/-- A diff has chunks exactly under a budget, and they are those of its files. -/
theorem ofDiff_eq_ok_iff {d : Diff} {chunks : List Chunk} :
    ofDiff budget d = .ok chunks ↔ 0 < budget ∧ chunks = (d.files.map (ofFile budget)).flatten := by
  rw [ofDiff, requirePositive, ← List.flatMap_def]
  by_cases hnone : budget ≤ 0
  · rw [if_pos hnone]
    exact ⟨(nomatch ·), fun h => absurd hnone (Int.not_le.2 h.1)⟩
  · rw [if_neg hnone]
    exact ⟨fun h => ⟨Int.not_le.1 hnone, (Except.ok.inj h).symm⟩, fun h => congrArg _ h.2.symm⟩

/-- No cuts of the hunks of several files have fewer groups than there are chunks. -/
theorem length_flatten_le {files : List FileChange} {cuts : List (List (List Hunk))}
    (h : List.Forall₂ (fun f groups => IsCut budget f.hunks groups) files cuts) :
    (files.map (ofFile budget)).flatten.length ≤ cuts.flatten.length := by
  induction h with
  | nil => exact Nat.le_refl 0
  | @cons f cut files cuts hcut _ ih =>
      rw [List.map_cons, List.flatten_cons, List.flatten_cons, List.length_append,
        List.length_append, ofFile_eq, length_ofGroups]
      exact Nat.add_le_add (length_groupsOf_le budget hcut) ih

/-- **Packing loses nothing, and no packing has fewer chunks.** -/
theorem ofDiff_isPacking (hbudget : 0 < budget) (d : Diff) :
    ∃ packs, ofDiff budget d = .ok packs.flatten ∧
      List.Forall₂ (IsPacking budget) d.files packs ∧
      ∀ cuts, List.Forall₂ (fun f groups => IsCut budget f.hunks groups) d.files cuts →
        packs.flatten.length ≤ cuts.flatten.length := by
  refine ⟨d.files.map (ofFile budget), (ofDiff_eq_ok_iff budget).2 ⟨hbudget, rfl⟩, ?_, ?_⟩
  · rw [List.forall₂_map_right_iff, List.forall₂_same]
    exact fun f _ => isPacking_ofFile budget f
  · exact fun cuts hcuts => length_flatten_le budget hcuts

/-- A diff with two entries for one path, the second with a hunk beyond a budget of 160. -/
def twoEntries : Diff :=
  ⟨[⟨"a", none, .deleted, [⟨"a", 1, 1, []⟩]⟩,
    ⟨"a", none, .added,
      [⟨"a", 1, 1, []⟩, ⟨"a", 2, 2, []⟩, ⟨"a", 3, 72, List.replicate 70 ⟨3, ""⟩⟩, ⟨"a", 80, 80, []⟩]⟩],
    ⟨70, 0, 2⟩⟩

theorem ofDiff_isPacking_twoEntries :
    (0 : Int) < 160 ∧
      ofDiff 160 twoEntries
        = .ok [⟨"a", [0], 80⟩, ⟨"a", [0, 1], 160⟩, ⟨"a", [2], 172⟩, ⟨"a", [3], 80⟩] ∧
      ∃ packs, ofDiff 160 twoEntries = .ok packs.flatten ∧
        List.Forall₂ (IsPacking 160) twoEntries.files packs ∧
        ∀ cuts, List.Forall₂ (fun f groups => IsCut 160 f.hunks groups) twoEntries.files cuts →
          packs.flatten.length ≤ cuts.flatten.length :=
  ⟨by decide, by decide, ofDiff_isPacking 160 (by decide) twoEntries⟩

end Chunk

end PatchReview
