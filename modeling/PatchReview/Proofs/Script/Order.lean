import PatchReview.Proofs.Outline.Account
import PatchReview.Proofs.Script.Reading

/-!
# Items stand in the order of their script

A character further on in a script starts at a later byte (`offset_lt_offset`) and so has a later place
(`isBefore_placeAt`). The marks of a script's statements stand one after another, as those of any rule
do, and whatever an item has to define starts within its own statement (`covers_ofMark`). So the places of
all items ascend (`ascend_items`), and the definitions of an outline that is read off a script stand in the
order of the script (`Outline.isOutlineOf_ofSource`).
-/

namespace PatchReview.Script

open PatchReview.Text

variable {bytes : ByteArray} {src : Source}

/-! ## Where characters start -/

/-- Whether characters start one after another, before some byte. -/
structure Starts (codes offsets : Array Nat) (stop : Nat) : Prop where
  size   : offsets.size = codes.size
  ascend : offsets.toList.Pairwise (· < ·)
  before : ∀ o ∈ offsets.toList, o < stop

theorem Starts.push {codes offsets : Array Nat} {start : Nat} (h : Starts codes offsets start)
    (code : Nat) {n : Nat} (hn : 0 < n) :
    Starts (codes.push code) (offsets.push start) (start + n) where
  size := by
    rw [Array.size_push, Array.size_push, h.size]
  ascend := by
    rw [Array.toList_push, List.pairwise_append]
    exact ⟨h.ascend, List.pairwise_singleton _ _, fun o ho o' ho' =>
      List.mem_singleton.1 ho' ▸ h.before o ho⟩
  before := by
    rw [Array.toList_push]
    refine List.forall_mem_append.2 ⟨fun o ho => ?_, List.forall_mem_singleton.2 (by omega)⟩
    have hbefore := h.before o ho
    omega

/-- A piece takes at least one byte. -/
theorem size_piece_pos (bytes : ByteArray) (start : Nat) : 0 < (Utf8.piece bytes start).size := by
  have hthree : ∀ lead low high, 0 < (Utf8.threeBytes bytes start lead low high).size := by
    intro lead low high
    unfold Utf8.threeBytes
    repeat' split
    all_goals exact Nat.succ_pos _
  have hfour : ∀ lead low high, 0 < (Utf8.fourBytes bytes start lead low high).size := by
    intro lead low high
    unfold Utf8.fourBytes
    repeat' split
    all_goals exact Nat.succ_pos _
  unfold Utf8.piece
  dsimp only
  repeat' split
  all_goals first | exact Nat.succ_pos _ | exact hthree _ _ _ | exact hfour _ _ _

/-- The characters that are read start one after another, at the offsets noted before the last. -/
theorem exists_starts_read (bytes : ByteArray) (fuel : Nat) :
    ∀ {start : Nat} {codes offsets : Array Nat}, Starts codes offsets start →
      ∃ starts stop, (Source.read bytes fuel start codes offsets).offsets = starts.push bytes.size ∧
        Starts (Source.read bytes fuel start codes offsets).codes starts stop := by
  induction fuel with
  | zero => exact fun h => ⟨_, _, rfl, h⟩
  | succ fuel ih =>
      intro start codes offsets h
      rw [Source.read]
      split
      · exact ⟨_, _, rfl, h⟩
      · have hpos := size_piece_pos bytes start
        cases hpiece : Utf8.piece bytes start with
        | scalar code n =>
            rw [hpiece] at hpos
            exact ih (h.push code hpos)
        | illFormed n => exact ih (h.push strayByte Nat.one_pos)

/-- **A later character starts at a later byte.** -/
theorem offset_lt_offset {p q : Nat} (hpq : p < q) (hq : q < (Source.ofBytes bytes).size) :
    (Source.ofBytes bytes).offset p < (Source.ofBytes bytes).offset q := by
  have hstart : Starts #[] #[] 0 := ⟨rfl, List.Pairwise.nil, fun o ho => (nomatch ho)⟩
  obtain ⟨starts, stop, hoffsets, hstarts⟩ := exists_starts_read bytes bytes.size hstart
  have hsize : starts.size = (Source.ofBytes bytes).size := hstarts.size
  have hat : ∀ k, (hk : k < starts.size) → (Source.ofBytes bytes).offset k = starts[k] := by
    intro k hk
    show (Source.read bytes bytes.size 0 #[] #[]).offsets.getD k _ = starts[k]
    rw [hoffsets, Array.getD_eq_getD_getElem?, Array.getElem?_push_lt hk, Option.getD_some]
  have hascend := List.pairwise_iff_getElem.1 hstarts.ascend p q (by simpa using (by omega))
    (by simpa using (by omega)) hpq
  rw [hat p (by omega), hat q (by omega)]
  simpa using hascend

/-! ## Places -/

/-- The place of a position. -/
def placeAt (src : Source) (i : Nat) : Place :=
  let (line, column) := src.place i
  ⟨line, column⟩

/-- The line of a byte and the byte at which that line starts. -/
def lineOf (bytes : ByteArray) (start : Nat) : Nat × Nat :=
  (List.range start).foldl
    (fun acc k => if bytes[k]? == some 0x0A then (acc.1 + 1, k + 1) else acc) (1, 0)

theorem placeAt_eq (src : Source) (i : Nat) :
    placeAt src i = ⟨(lineOf src.bytes (src.offset i)).1,
      ((src.offset i - (lineOf src.bytes (src.offset i)).2 + 1 : Nat) : Int)⟩ := rfl

theorem lineOf_succ (bytes : ByteArray) (start : Nat) :
    lineOf bytes (start + 1)
      = if bytes[start]? == some 0x0A then ((lineOf bytes start).1 + 1, start + 1)
        else lineOf bytes start := by
  rw [lineOf, List.range_succ, List.foldl_append]
  rfl

/-- A line starts no later than its bytes. -/
theorem lineOf_le (bytes : ByteArray) (start : Nat) : (lineOf bytes start).2 ≤ start := by
  induction start with
  | zero => exact Nat.le_refl 0
  | succ start ih =>
      rw [lineOf_succ]
      split
      · exact Nat.le_refl _
      · exact Nat.le_succ_of_le ih

/-- A later byte is in the same line or in a later one. -/
theorem lineOf_lt_or_eq (bytes : ByteArray) {start later : Nat} (h : start ≤ later) :
    (lineOf bytes start).1 < (lineOf bytes later).1 ∨ lineOf bytes start = lineOf bytes later := by
  induction h with
  | refl => exact .inr rfl
  | step _ ih =>
      rw [lineOf_succ]
      split
      · rcases ih with hlt | heq
        · exact .inl (Nat.lt_succ_of_lt hlt)
        · exact .inl (heq ▸ Nat.lt_succ_self _)
      · exact ih

/-- **A later character has a later place.** -/
theorem isBefore_placeAt {p q : Nat} (hpq : p < q) (hq : q < (Source.ofBytes bytes).size) :
    (placeAt (Source.ofBytes bytes) p).IsBefore (placeAt (Source.ofBytes bytes) q) := by
  have hoffset := offset_lt_offset hpq hq
  generalize (Source.ofBytes bytes) = src at hoffset
  rw [placeAt_eq, placeAt_eq]
  rcases lineOf_lt_or_eq src.bytes (Nat.le_of_lt hoffset) with hline | hline
  · exact .inl (Int.ofNat_lt.2 hline)
  · have hle := lineOf_le src.bytes (src.offset p)
    refine .inr ⟨by rw [hline], Int.ofNat_lt.2 ?_⟩
    rw [← hline]
    omega

/-! ## Items -/

/-- Whether places are those of characters that follow one another between two positions. -/
def Covers (src : Source) (i j : Nat) (places : List Place) : Prop :=
  ∃ positions : List Nat, positions.Pairwise (· < ·) ∧ (∀ p ∈ positions, i ≤ p ∧ p < j) ∧
    places = positions.map (placeAt src)

namespace Covers

variable {i j k : Nat} {places more : List Place}

theorem nil : Covers src i j [] := ⟨[], List.Pairwise.nil, fun _ hp => (nomatch hp), rfl⟩

theorem single {p : Nat} (hi : i ≤ p) (hj : p < j) : Covers src i j [placeAt src p] :=
  ⟨[p], List.pairwise_singleton _ _, List.forall_mem_singleton.2 ⟨hi, hj⟩, rfl⟩

theorem append (h : Covers src i j places) (hmore : Covers src j k more) (hij : i ≤ j) (hjk : j ≤ k) :
    Covers src i k (places ++ more) := by
  obtain ⟨ps, hps, hrange, rfl⟩ := h
  obtain ⟨qs, hqs, hrange', rfl⟩ := hmore
  refine ⟨ps ++ qs, List.pairwise_append.2 ⟨hps, hqs, fun p hp q hq => ?_⟩,
    List.forall_mem_append.2 ⟨fun p hp => ?_, fun q hq => ?_⟩, List.map_append.symm⟩
  · exact Nat.lt_of_lt_of_le (hrange p hp).2 (hrange' q hq).1
  · exact ⟨(hrange p hp).1, Nat.lt_of_lt_of_le (hrange p hp).2 hjk⟩
  · exact ⟨Nat.le_trans hij (hrange' q hq).1, (hrange' q hq).2⟩

theorem mono (h : Covers src i j places) (hjk : j ≤ k) : Covers src i k places := by
  obtain ⟨positions, hpositions, hrange, rfl⟩ := h
  exact ⟨positions, hpositions, fun p hp => ⟨(hrange p hp).1, Nat.lt_of_lt_of_le (hrange p hp).2 hjk⟩, rfl⟩

/-- What each mark says is covered, and so is what all of them say. -/
theorem flatMap {marks : List (Mark Label)} (h : IsLaid i j marks) (f : Mark Label → List Place)
    (hf : ∀ {i stop : Nat} {m : Mark Label}, IsLaid i stop [m] → Covers src i stop (f m)) :
    Covers src i j (marks.flatMap f) := by
  induction h with
  | nil h => exact nil
  | cons hfrom hsome hinner hrest _ ih =>
      exact (hf (.cons hfrom hsome hinner (.nil (Nat.le_refl _)))).append ih (by omega) hrest.le

/-- Places of characters that follow one another ascend. -/
theorem ascend (h : Covers (Source.ofBytes bytes) i j places)
    (hj : j ≤ (Source.ofBytes bytes).size) : places.Pairwise Place.IsBefore := by
  obtain ⟨positions, hpositions, hrange, rfl⟩ := h
  refine List.pairwise_map.2 (hpositions.imp_of_mem fun {p q} _ hq hpq => ?_)
  exact isBefore_placeAt hpq (Nat.lt_of_lt_of_le (hrange q hq).2 hj)

end Covers

namespace Item

/-- An entry of an export list stands where its mark does. -/
theorem place_of_specifierOf {m : Mark Label} {s : Specifier} (h : specifierOf src m = some s) :
    s.place = placeAt src m.start := by
  unfold specifierOf at h
  split at h
  · split at h
    · dsimp only at h
      split at h
      · cases h
      · exact Option.some.inj h ▸ rfl
    · cases h
  · exact Option.some.inj h ▸ rfl
  · cases h

theorem covers_specifiers {i j : Nat} {marks : List (Mark Label)} (h : IsLaid i j marks) :
    Covers src i j ((marks.filterMap (specifierOf src)).map (·.place)) := by
  rw [List.filterMap_eq_flatMap_toList, List.map_flatMap]
  refine Covers.flatMap h _ fun {i stop m} hm => ?_
  obtain ⟨hfrom, hstop⟩ := hm.starts.2 m List.mem_cons_self
  cases hs : specifierOf src m with
  | none => exact Covers.nil
  | some s =>
      rw [Option.toList_some, List.map_singleton, place_of_specifierOf hs]
      exact Covers.single hfrom hstop

/-- What an export has to define starts within the export. -/
theorem covers_ofExport {i j : Nat} {m : Mark Label} (h : IsLaid i j m.inner) :
    Covers src i j (ofExport src m).places := by
  unfold ofExport
  split
  · rename_i inner hfound
    obtain ⟨hfrom, hstop⟩ := h.starts.2 inner (List.mem_of_find?_eq_some hfound)
    split
    · exact Covers.single hfrom hstop
    · exact Covers.single hfrom hstop
    · exact Covers.nil
    · exact Covers.nil
  · exact covers_specifiers h

/-- **What an item has to define starts within its statement.** -/
theorem covers_ofMark {i j : Nat} {m : Mark Label} (h : IsLaid i j [m]) :
    Covers src i j ((ofMark src m).toList.flatMap places) := by
  obtain ⟨hfrom, hstop⟩ := h.starts.2 m List.mem_cons_self
  unfold ofMark
  split
  · exact Covers.nil
  · obtain ⟨hinner, hle⟩ := h.inner
    rw [Option.toList_some, List.flatMap_singleton]
    exact (covers_ofExport hinner).mono hle
  · exact Covers.single hfrom hstop
  · exact Covers.nil

end Item

/-- **The items of a script stand in its order**: the places at which they have something to define
    ascend. -/
theorem ascend_items {d : Dialect} {is : List Item} (h : items d bytes = some is) :
    (is.flatMap Item.places).Pairwise Place.IsBefore := by
  obtain ⟨marks, hmarks, rfl⟩ := Option.map_eq_some_iff.1 h
  have hreads := Rule.reads_run (Grammar.rule d) (Source.ofBytes bytes)
    (Grammar.depthPerCharacter * ((Source.ofBytes bytes).size + 2)) (.call .program) 0 ∅
    Rule.remembers_empty
  rw [Grammar.statements] at hmarks
  split at hmarks
  · rename_i stop marks' hanswer
    obtain rfl := Option.some.inj hmarks
    obtain ⟨hlaid, hsize⟩ := hreads.1 stop _ hanswer
    rw [List.filterMap_eq_flatMap_toList, List.flatMap_assoc]
    exact (Covers.flatMap hlaid _ Item.covers_ofMark).ascend (hsize (Nat.zero_le _))
  · cases hmarks

end PatchReview.Script

namespace PatchReview.Outline

/-- **The outline of a source file accounts for the items of its script**, and its definitions stand in the
    order of the script. -/
theorem isOutlineOf_ofSource {d : Script.Dialect} {file : String} {bytes : ByteArray} {o : Outline}
    (h : ofSource d file bytes = some o) :
    ∃ items, Script.items d bytes = some items ∧ o.IsOutlineOf file items ∧
      (o.definitions.map (·.place)).Pairwise Place.IsBefore := by
  obtain ⟨items, hitems, rfl⟩ := Option.map_eq_some_iff.1 h
  have houtline := isOutlineOf_ofItems file items
  exact ⟨items, hitems, houtline, houtline.ordered (Script.ascend_items hitems)⟩

end PatchReview.Outline
