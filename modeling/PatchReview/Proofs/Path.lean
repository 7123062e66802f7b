import Mathlib.Data.List.TakeWhile
import PatchReview.Path

/-!
# Names and their paths

Names joined by slashes are read back as those names (`pieces_intercalate`), so such a path is its own
normal spelling (`normalized_intercalate`) and different names have different paths
(`intercalate_injective`). Names that are followed by their text alone stay single names
(`all_isSingle_collapse`). The text of a path names that path (`ofText_text`), so every normal spelling
is its own (`normalized_normalized`). Steps that lead nowhere add no name, so every path has further
spellings of any length (`exists_long_spelling`).
-/

namespace PatchReview.Path

theorem not_mem_of_isSingle {name : String} (h : isSingle name = true) : '/' ∉ name.toList := by
  simp only [isSingle, Bool.and_eq_true, Bool.not_eq_true', List.contains_eq_mem,
    decide_eq_false_iff_not] at h
  exact h.2

theorem not_isIdle_of_isSingle {name : String} (h : isSingle name = true) : isIdle name = false := by
  simp only [isSingle, Bool.and_eq_true, Bool.not_eq_true'] at h
  exact h.1

/-- A name with more text at its end is a name. -/
theorem isSingle_append {name more : String} (h : isSingle name = true) (hmore : '/' ∉ more.toList) :
    isSingle (name ++ more) = true := by
  have hidle := not_isIdle_of_isSingle h
  simp only [isIdle, Bool.or_eq_false_iff, beq_eq_false_iff_ne] at hidle
  have hslash : '/' ∉ (name ++ more).toList := by
    rw [String.toList_append, List.mem_append]
    exact fun hmem => hmem.elim (not_mem_of_isSingle h) hmore
  have hempty : name ++ more ≠ "" := fun heq => hidle.1 (String.append_eq_empty_iff.1 heq).1
  have hpoint : name ++ more ≠ "." := by
    intro heq
    have hchars : name.toList ++ more.toList = ['.'] := by
      rw [← String.toList_append, heq]
      rfl
    rcases List.append_eq_singleton_iff.1 hchars with ⟨hname, -⟩ | ⟨hname, -⟩
    · exact hidle.1 (String.toList_eq_nil_iff.1 hname)
    · exact hidle.2 (String.toList_inj.1 hname)
  simp only [isSingle, isIdle, Bool.and_eq_true, Bool.not_eq_true', Bool.or_eq_false_iff,
    beq_eq_false_iff_ne]
  exact ⟨⟨hempty, hpoint⟩, by simpa using hslash⟩

/-- The characters of joined names. -/
theorem toList_intercalate_slash (names : List String) :
    ("/".intercalate names).toList = ['/'].intercalate (names.map String.toList) :=
  String.toList_intercalate

/-- Names joined by slashes are the pieces between them. -/
theorem pieces_intercalate {names : List String} (hne : names ≠ [])
    (h : names.all isSingle = true) : pieces ("/".intercalate names) = names := by
  have hslash : ∀ cs ∈ names.map String.toList, '/' ∉ cs := by
    intro cs hcs
    obtain ⟨name, hname, rfl⟩ := List.mem_map.1 hcs
    exact not_mem_of_isSingle (List.all_eq_true.1 h name hname)
  rw [pieces, toList_intercalate_slash, List.splitOn_intercalate '/' hslash (by simpa using hne),
    List.map_map]
  simp [Function.comp_def]

/-- Names joined by slashes are the names that are read. -/
theorem filter_pieces_intercalate {names : List String} (h : names.all isSingle = true) :
    (pieces ("/".intercalate names)).filter (!isIdle ·) = names := by
  cases names with
  | nil => decide
  | cons first rest =>
      rw [pieces_intercalate (List.cons_ne_nil first rest) h, List.filter_eq_self]
      intro name hname
      rw [not_isIdle_of_isSingle (List.all_eq_true.1 h name hname)]
      rfl

/-- Different names have different paths. -/
theorem intercalate_injective {names others : List String} (hne : names ≠ []) (hne' : others ≠ [])
    (h : names.all isSingle = true) (h' : others.all isSingle = true)
    (heq : "/".intercalate names = "/".intercalate others) : names = others := by
  rw [← pieces_intercalate hne h, heq, pieces_intercalate hne' h']

/-- Joined names start where they are read. -/
theorem anchorOf_intercalate {names : List String} (hne : names ≠ [])
    (h : names.all isSingle = true) : anchorOf ("/".intercalate names) = .here := by
  cases names with
  | nil => exact absurd rfl hne
  | cons first rest =>
      have hfirst : isSingle first = true := by simpa using (List.all_eq_true.1 h) first
      have hslash := not_mem_of_isSingle hfirst
      cases hchars : first.toList with
      | nil =>
          have hempty : first = "" := String.toList_eq_nil_iff.1 hchars
          simp [hempty, isSingle, isIdle] at hfirst
      | cons c more =>
          rw [hchars] at hslash
          have hc : ¬c = '/' := fun heq => hslash (heq ▸ List.mem_cons_self)
          have hstart : ∃ others, ("/".intercalate (first :: rest)).toList = c :: others := by
            rw [toList_intercalate_slash, List.map_cons, hchars]
            cases rest with
            | nil => exact ⟨more, by simp⟩
            | cons next others => exact ⟨_, by rw [List.map_cons, List.intercalate_cons_cons]; rfl⟩
          obtain ⟨others, hothers⟩ := hstart
          rw [anchorOf, hothers, List.takeWhile_cons_of_neg (by simpa using hc)]
          rfl

/-- **Joined names are their own normal spelling.** -/
theorem normalized_intercalate {names : List String} (hne : names ≠ [])
    (h : names.all isSingle = true) :
    normalized ("/".intercalate names) = "/".intercalate names := by
  rw [normalized, ofText, anchorOf_intercalate hne h, filter_pieces_intercalate h, text]
  cases names with
  | nil => exact absurd rfl hne
  | cons first rest => simp [anchorText]

/-! ## Names that are followed by their text -/

/-- No piece between two characters holds that character. -/
theorem not_mem_of_mem_splitOn {c : Char} {cs piece : List Char} (h : piece ∈ cs.splitOn c) :
    c ∉ piece := by
  induction cs generalizing piece with
  | nil =>
      obtain rfl : piece = [] := by simpa using h
      exact List.not_mem_nil
  | cons d rest ih =>
      rw [List.splitOn_cons_eq_if_modifyHead] at h
      by_cases hd : (d == c) = true
      · rw [if_pos hd] at h
        rcases List.mem_cons.1 h with rfl | hrest
        · exact List.not_mem_nil
        · exact ih hrest
      · rw [if_neg hd] at h
        cases hsplit : rest.splitOn c with
        | nil => exact absurd hsplit (List.splitOn_ne_nil c rest)
        | cons first more =>
            rw [hsplit, List.modifyHead_cons] at h
            rcases List.mem_cons.1 h with rfl | hmore
            · have hfirst : c ∉ first := ih (hsplit ▸ List.mem_cons_self)
              have hne : c ≠ d := fun heq => hd (by simp [heq])
              exact fun hmem => (List.mem_cons.1 hmem).elim hne hfirst
            · exact ih (hsplit ▸ List.mem_cons_of_mem _ hmore)

/-- The names of a path are single. -/
theorem all_isSingle_ofText (text : String) : (ofText text).names.all isSingle = true := by
  refine List.all_eq_true.2 fun name hname => ?_
  obtain ⟨hpiece, hidle⟩ := List.mem_filter.1 hname
  obtain ⟨piece, hsplit, rfl⟩ := List.mem_map.1 hpiece
  have hslash := not_mem_of_mem_splitOn hsplit
  simp only [isSingle, Bool.and_eq_true, hidle, String.toList_ofList, true_and]
  simpa using hslash

/-- Following a single name from single names leads to single names. -/
theorem all_isSingle_follow {l : Location} (hl : l.all isSingle = true) {name : String}
    (hname : isSingle name = true) : (follow l name).all isSingle = true := by
  unfold follow
  split
  · exact List.all_eq_true.2 fun n hn => List.all_eq_true.1 hl n ((List.dropLast_sublist l).mem hn)
  · split
    · exact hl
    · rw [List.all_append, hl, List.all_cons, hname]
      rfl

theorem all_isSingle_foldl_follow {l : Location} (hl : l.all isSingle = true) {names : List String}
    (hnames : names.all isSingle = true) : (names.foldl follow l).all isSingle = true := by
  induction names generalizing l with
  | nil => exact hl
  | cons name rest ih =>
      rw [List.all_cons, Bool.and_eq_true] at hnames
      exact ih (all_isSingle_follow hl hnames.1) hnames.2

theorem all_isSingle_collapse {names : List String} (h : names.all isSingle = true) :
    (collapse names).all isSingle = true := all_isSingle_foldl_follow rfl h

/-! ## Normal spellings -/

/-- A slash in front is a start of its own, and no name. -/
theorem pieces_slash (text : String) : pieces ("/" ++ text) = "" :: pieces text := by
  have hchars : ("/" ++ text).toList = '/' :: text.toList := by
    rw [String.toList_append]
    rfl
  rw [pieces, hchars, List.splitOn_cons_eq_if_modifyHead, if_pos (beq_self_eq_true '/')]
  rfl

/-- The slashes of a start are read as that start, before a text without one. -/
theorem anchorOf_anchorText (a : Anchor) {text : String} (h : anchorOf text = .here) :
    anchorOf (anchorText a ++ text) = a := by
  have hnone : (text.toList.takeWhile (· = '/')).length = 0 := by
    rw [anchorOf] at h
    split at h
    · assumption
    · exact nomatch h
    · exact nomatch h
  cases a with
  | here => simpa [anchorText] using h
  | top =>
      have hchars : (anchorText .top ++ text).toList = '/' :: text.toList := by
        rw [String.toList_append]
        rfl
      rw [anchorOf, hchars, List.takeWhile_cons_of_pos (by decide), List.length_cons, hnone]
      rfl
  | doubledTop =>
      have hchars : (anchorText .doubledTop ++ text).toList = '/' :: '/' :: text.toList := by
        rw [String.toList_append]
        rfl
      rw [anchorOf, hchars, List.takeWhile_cons_of_pos (by decide),
        List.takeWhile_cons_of_pos (by decide), List.length_cons, List.length_cons, hnone]
      rfl

/-- The slashes of a start add no name. -/
theorem filter_pieces_anchorText (a : Anchor) (text : String) :
    (pieces (anchorText a ++ text)).filter (!isIdle ·) = (pieces text).filter (!isIdle ·) := by
  have hslash : ∀ more : String,
      (pieces ("/" ++ more)).filter (!isIdle ·) = (pieces more).filter (!isIdle ·) := by
    intro more
    rw [pieces_slash]
    rfl
  cases a with
  | here => rw [anchorText, String.empty_append]
  | top => exact hslash text
  | doubledTop =>
      have htwo : anchorText .doubledTop ++ text = "/" ++ ("/" ++ text) := by
        rw [← String.append_assoc]
        rfl
      rw [htwo, hslash, hslash]

/-- The text of a path names it. -/
theorem ofText_text {p : Path} (h : p.names.all isSingle = true) : ofText p.text = p := by
  obtain ⟨a, names⟩ := p
  by_cases hpoint : a = .here ∧ names = []
  · obtain ⟨rfl, rfl⟩ := hpoint
    decide
  · have htext : text ⟨a, names⟩ = anchorText a ++ "/".intercalate names := by
      rw [text]
      split
      · rename_i ha hnames
        exact absurd ⟨ha, hnames⟩ hpoint
      · rfl
    cases names with
    | nil =>
        cases a with
        | here => exact absurd ⟨rfl, rfl⟩ hpoint
        | top | doubledTop => decide
    | cons first rest =>
        have hne : first :: rest ≠ [] := List.cons_ne_nil first rest
        rw [ofText, htext, anchorOf_anchorText a (anchorOf_intercalate hne h),
          filter_pieces_anchorText, filter_pieces_intercalate h]

/-- **The normal spelling is its own normal spelling.** -/
theorem normalized_normalized (text : String) : normalized (normalized text) = normalized text := by
  rw [normalized, normalized, ofText_text (all_isSingle_ofText text)]

/-! ## Roundabout spellings -/

/-- A point and a slash in front are a piece that says nothing. -/
theorem pieces_point (text : String) : pieces ("./" ++ text) = "." :: pieces text := by
  have hchars : ("./" ++ text).toList = '.' :: '/' :: text.toList := by
    rw [String.toList_append]
    rfl
  rw [pieces, hchars, List.splitOn_cons_eq_if_modifyHead, if_neg (by decide),
    List.splitOn_cons_eq_if_modifyHead, if_pos (beq_self_eq_true '/')]
  rfl

/-- A text with so many steps in front of it that lead nowhere. -/
def pointed : Nat → String → String
  | 0, text => text
  | n + 1, text => "./" ++ pointed n text

theorem le_length_pointed (n : Nat) (text : String) : n ≤ (pointed n text).length := by
  induction n with
  | zero => exact Nat.zero_le _
  | succ n ih =>
      rw [pointed, String.length_append]
      have hpoint : ("./" : String).length = 2 := by decide
      omega

/-- Such steps add no name. -/
theorem filter_pieces_pointed (n : Nat) (text : String) :
    (pieces (pointed n text)).filter (!isIdle ·) = (pieces text).filter (!isIdle ·) := by
  induction n with
  | zero => rfl
  | succ n ih =>
      rw [pointed, pieces_point, ← ih]
      rfl

/-- **Every path has spellings of any length.** -/
theorem exists_long_spelling (text : String) (n : Nat) :
    ∃ other, normalized other = normalized text ∧ n < other.length := by
  let p := ofText text
  have hstart : anchorOf (pointed (n + 1) ("/".intercalate p.names)) = .here := by
    have hchars : (pointed (n + 1) ("/".intercalate p.names)).toList
        = '.' :: '/' :: (pointed n ("/".intercalate p.names)).toList := by
      rw [pointed, String.toList_append]
      rfl
    rw [anchorOf, hchars, List.takeWhile_cons_of_neg (by decide)]
    rfl
  refine ⟨anchorText p.anchor ++ pointed (n + 1) ("/".intercalate p.names), ?_, ?_⟩
  · rw [normalized, ofText, anchorOf_anchorText p.anchor hstart, filter_pieces_anchorText,
      filter_pieces_pointed, filter_pieces_intercalate (all_isSingle_ofText text)]
    rfl
  · have hlength := le_length_pointed (n + 1) ("/".intercalate p.names)
    rw [String.length_append]
    omega

end PatchReview.Path
