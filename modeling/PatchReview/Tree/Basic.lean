import PatchReview.Path

/-!
# Trees of files

A tree holds what stands at each location: a directory, a file with its bytes, or a link with the text
that it leads to. The top is always a directory. Four things hold of every tree: a location is
entered once, the top is not entered, whatever is entered stands in a directory, and its names are
such as a file can have. All changes keep them, so they are part of the type.
-/

namespace PatchReview

/-- Bytes are told apart by what they hold. -/
instance decidableEqBytes : DecidableEq ByteArray := ByteArray.instDecidableEq

/-- What stands at a location. -/
inductive Entry where
  | directory
  | file (content : ByteArray)
  | link (target : String)
deriving DecidableEq

/-- Locations with what stands there. -/
abbrev Entries := List (Location × Entry)

namespace Entries

/-- What stands at a location. -/
def at? (es : Entries) (l : Location) : Option Entry :=
  if l = [] then some .directory else es.lookup l

/-- The locations entered. -/
def keys (es : Entries) : List Location := es.map (·.1)

/-- Everything entered stands in a directory. -/
def Closed (es : Entries) : Prop := ∀ l ∈ es.keys, es.at? l.dropLast = some .directory

theorem lookup_eq_none_of_not_mem {es : Entries} {l : Location} (h : l ∉ es.keys) :
    es.lookup l = none := by
  induction es with
  | nil => rfl
  | cons e es ih =>
    obtain ⟨k, v⟩ := e
    simp only [keys, List.map_cons, List.mem_cons, not_or] at h
    simp only [List.lookup_cons]
    rw [beq_eq_false_iff_ne.2 h.1]
    exact ih h.2

theorem not_mem_of_lookup_eq_none {es : Entries} {l : Location} (h : es.lookup l = none) :
    l ∉ es.keys := by
  induction es with
  | nil => simp [keys]
  | cons e es ih =>
    obtain ⟨k, v⟩ := e
    simp only [List.lookup_cons] at h
    split at h
    · simp at h
    · rename_i hk
      simp only [keys, List.map_cons, List.mem_cons, not_or]
      exact ⟨beq_eq_false_iff_ne.1 hk, ih h⟩

/-- Further entries hide none that are there. -/
theorem lookup_append_of_some {es fs : Entries} {l : Location} {e : Entry}
    (h : es.lookup l = some e) : (es ++ fs).lookup l = some e := by
  induction es with
  | nil => simp at h
  | cons x es ih =>
    obtain ⟨k, v⟩ := x
    simp only [List.cons_append, List.lookup_cons] at h ⊢
    split at h
    · exact h
    · exact ih h

theorem at?_append_of_some {es fs : Entries} {l : Location} {e : Entry} (h : es.at? l = some e) :
    at? (es ++ fs) l = some e := by
  unfold at? at h ⊢
  split
  · simpa [*] using h
  · simp only [*, if_false] at h
    exact lookup_append_of_some h

/-- Leaving out entries at other locations does not change what stands here. -/
theorem lookup_filter {es : Entries} {l : Location} (keep : Location → Bool) (h : keep l = true) :
    (es.filter fun e => keep e.1).lookup l = es.lookup l := by
  induction es with
  | nil => rfl
  | cons x es ih =>
    obtain ⟨k, v⟩ := x
    by_cases hk : l = k
    · subst hk
      simp [h]
    · simp only [List.filter_cons, List.lookup_cons]
      split
      · simp only [List.lookup_cons, ih]
      · rw [beq_eq_false_iff_ne.2 hk]
        exact ih

/-- New content at one location leaves the others as they are. -/
def refilled (l : Location) (content : ByteArray) (es : Entries) : Entries :=
  es.map fun e => if e.1 = l then (l, .file content) else e

theorem keys_refilled (l : Location) (content : ByteArray) (es : Entries) :
    (refilled l content es).keys = es.keys := by
  induction es with
  | nil => rfl
  | cons x es ih =>
    obtain ⟨k, v⟩ := x
    simp only [refilled, keys, List.map_cons, List.map_map, List.cons.injEq] at ih ⊢
    refine ⟨?_, ih⟩
    split <;> simp_all

theorem lookup_refilled_of_ne {l k : Location} {content : ByteArray} {es : Entries} (h : k ≠ l) :
    (refilled l content es).lookup k = es.lookup k := by
  induction es with
  | nil => rfl
  | cons x es ih =>
    obtain ⟨m, v⟩ := x
    simp only [refilled, List.map_cons] at ih ⊢
    by_cases hm : m = l
    · subst hm
      simp only [if_true, List.lookup_cons, beq_eq_false_iff_ne.2 h]
      exact ih
    · simp only [hm, if_false, List.lookup_cons]
      split
      · rfl
      · exact ih

end Entries

/-- A tree of directories, files and links. -/
structure Tree where
  entries  : Entries
  distinct : entries.keys.Nodup
  lower    : [] ∉ entries.keys
  closed   : entries.Closed
  named    : ∀ l ∈ entries.keys, l.all Path.isName = true

namespace Tree

/-- The tree with nothing but its top. -/
def empty : Tree :=
  ⟨[], by simp [Entries.keys], by simp [Entries.keys], by simp [Entries.Closed, Entries.keys],
    by simp [Entries.keys]⟩

/-- What stands at a location. -/
def at? (t : Tree) (l : Location) : Option Entry := t.entries.at? l

/-- Whether a directory stands at a location. -/
def isDirectory (t : Tree) (l : Location) : Bool := t.at? l = some .directory

/-- The locations of links. -/
def links (t : Tree) : List Location :=
  t.entries.filterMap fun e =>
    match e.2 with
    | .link _ => some e.1
    | _ => none

/-- Enters something at a location that is free, stands in a directory and has names such as a file
    can have; elsewhere nothing changes. -/
def add (t : Tree) (l : Location) (e : Entry) : Tree :=
  if h : t.at? l = none ∧ t.at? l.dropLast = some .directory ∧ l.all Path.isName = true then
    { entries := t.entries ++ [(l, e)]
      distinct := by
        have free : l ∉ t.entries.keys := by
          have := h.1
          unfold at? Entries.at? at this
          split at this
          · simp at this
          · exact Entries.not_mem_of_lookup_eq_none this
        have := t.distinct
        simp only [Entries.keys, List.map_append, List.map_cons, List.map_nil] at this free ⊢
        rw [List.nodup_append]
        refine ⟨this, by simp, fun a ha b hb => ?_⟩
        rintro rfl
        exact free (List.mem_singleton.1 hb ▸ ha)
      lower := by
        have := t.lower
        have ne : [] ≠ l := by
          rintro rfl
          simp [at?, Entries.at?] at h
        simp only [Entries.keys, List.map_append, List.map_cons, List.map_nil, List.mem_append,
          List.mem_singleton, not_or] at this ⊢
        exact ⟨this, ne⟩
      closed := by
        intro k hk
        simp only [Entries.keys, List.map_append, List.map_cons, List.map_nil, List.mem_append,
          List.mem_singleton] at hk
        rcases hk with hk | rfl
        · exact Entries.at?_append_of_some (t.closed k hk)
        · exact Entries.at?_append_of_some h.2.1
      named := by
        intro k hk
        simp only [Entries.keys, List.map_append, List.map_cons, List.map_nil, List.mem_append,
          List.mem_singleton] at hk
        rcases hk with hk | rfl
        · exact t.named k hk
        · exact h.2.2 }
  else t

/-- Enters a directory and those that lead to it, from the top down. -/
def addDirectory (t : Tree) (l : Location) : Tree :=
  (List.range l.length).foldl (fun t n => t.add (l.take (n + 1)) .directory) t

/-- Whether a file stands at a location. -/
def isFile (t : Tree) (l : Location) : Bool :=
  match t.at? l with
  | some (.file _) => true
  | _ => false

/-- Gives the file at a location new content; where no file stands nothing changes. -/
def refill (t : Tree) (l : Location) (content : ByteArray) : Tree :=
  if h : t.isFile l then
    { entries := t.entries.refilled l content
      distinct := by rw [Entries.keys_refilled]; exact t.distinct
      lower := by rw [Entries.keys_refilled]; exact t.lower
      closed := by
        intro k hk
        rw [Entries.keys_refilled] at hk
        have dir := t.closed k hk
        have ne : k.dropLast ≠ l := by
          rintro rfl
          simp [isFile, at?, dir] at h
        unfold Entries.at? at dir ⊢
        split
        · rfl
        · simp only [*, if_false] at dir
          rw [Entries.lookup_refilled_of_ne ne]
          exact dir
      named := by rw [Entries.keys_refilled]; exact t.named }
  else t

/-- Puts a file at a location, with the directories that lead to it. -/
def write (t : Tree) (l : Location) (content : ByteArray) : Tree :=
  ((t.addDirectory l.dropLast).add l (.file content)).refill l content

/-- Removes what stands at a location and below it. -/
def remove (t : Tree) (l : Location) : Tree where
  entries := t.entries.filter fun e => !l.isPrefixOf e.1
  distinct := by
    have := t.distinct
    simp only [Entries.keys] at this ⊢
    exact this.sublist (List.filter_sublist.map _)
  lower := by
    have := t.lower
    simp only [Entries.keys, List.mem_map, List.mem_filter, not_exists, not_and] at this ⊢
    exact fun e he => this e he.1
  closed := by
    intro k hk
    simp only [Entries.keys, List.mem_map, List.mem_filter] at hk
    obtain ⟨e, ⟨he, keep⟩, rfl⟩ := hk
    have dir := t.closed e.1 (List.mem_map_of_mem he)
    unfold Entries.at? at dir ⊢
    split
    · rfl
    · simp only [*, if_false] at dir
      rw [Entries.lookup_filter fun k => !l.isPrefixOf k, dir]
      simp only [Bool.not_eq_true', ← Bool.not_eq_true, List.isPrefixOf_iff_prefix] at keep ⊢
      exact fun p => keep (p.trans (List.dropLast_prefix _))
  named := by
    intro k hk
    simp only [Entries.keys, List.mem_map, List.mem_filter] at hk
    obtain ⟨e, ⟨he, -⟩, rfl⟩ := hk
    exact t.named e.1 (List.mem_map_of_mem he)

end Tree

end PatchReview
