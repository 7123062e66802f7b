import PatchReview.Proofs.Outline.Account

/-!
# Exports of what was declared before

An export without a source is meant for what was declared before under its name. What it exports is the
first definition of the name. An outline extends the one before it, so that definition stays the first
(`Extends.leads`), and any later one of the name is never marked (`Step.isHidden`). So the declarations of
a name are all exported, as what one of them is, just where none that is not exported at once comes after
another definition of the name, and the first definition is of the kind of one of them
(`exportsLocals_iff`). What an earlier export of another module's name has left in its place hides a
declaration, and so does one declaration another (`exportsLocals_hidden`).
-/

namespace PatchReview

open Script (Item Declaration Specifier)

/-- What an item exports of what was declared before it. -/
def Script.Item.exportsHere : Item → List Specifier
  | .exportingName name place => [⟨name, name, place⟩]
  | .exportingList none specifiers => specifiers
  | _ => []

namespace Outline

variable {file name : String} {i : Item} {xs ys before : List Item} {s : Specifier} {o later : Outline}
  {d : Definition} {n : Nat}

/-! ## First and hidden definitions -/

/-- The names of the first `n` definitions. -/
def namesBefore (o : Outline) (n : Nat) : List String := (o.definitions.take n).map (·.name)

/-- Whether a definition follows `n` others and is the first of its name. -/
structure Leads (o : Outline) (n : Nat) (d : Definition) : Prop where
  stands : o.definitions[n]? = some d
  first  : d.name ∉ o.namesBefore n

/-- Whether it follows `n` others and one of them has its name. -/
structure IsHidden (o : Outline) (n : Nat) (d : Definition) : Prop where
  stands : o.definitions[n]? = some d
  behind : d.name ∈ o.namesBefore n

theorem lt_length_of_stands (h : o.definitions[n]? = some d) : n < o.definitions.length :=
  (List.getElem?_eq_some_iff.1 h).1

theorem definitions_eq_of_stands (h : o.definitions[n]? = some d) :
    o.definitions = o.definitions.take n ++ d :: o.definitions.drop (n + 1) := by
  obtain ⟨hn, rfl⟩ := List.getElem?_eq_some_iff.1 h
  rw [List.getElem_cons_drop, List.take_append_drop]

/-- What is found under a name leads. -/
theorem find?_eq_some_iff_leads :
    o.definitions.find? (·.name = name) = some d ↔ d.name = name ∧ ∃ n, o.Leads n d := by
  rw [List.find?_eq_some_iff_append, decide_eq_true_iff]
  refine and_congr_right ?_
  rintro rfl
  constructor
  · rintro ⟨front, back, hsplit, hfront⟩
    refine ⟨front.length, ?_, ?_⟩
    · rw [hsplit, List.getElem?_append_right (Nat.le_refl _), Nat.sub_self, List.getElem?_cons_zero]
    · rw [namesBefore, hsplit, List.take_left]
      intro hin
      obtain ⟨e, he, hname⟩ := List.mem_map.1 hin
      have hne := hfront e he
      rw [hname, decide_eq_true rfl] at hne
      cases hne
  · rintro ⟨n, hstands, hfirst⟩
    refine ⟨_, _, definitions_eq_of_stands hstands, ?_⟩
    intro e he
    rw [decide_eq_false]
    · rfl
    · intro hname
      exact hfirst (hname ▸ List.mem_map_of_mem he)

theorem map_name_of_grows {ds kept : List Definition} (h : List.Forall₂ Definition.Grows ds kept) :
    kept.map (·.name) = ds.map (·.name) := by
  induction h with
  | nil => rfl
  | cons hfirst _ ih => rw [List.map_cons, List.map_cons, hfirst.name_eq, ih]

/-- No definition changes its name. -/
theorem Extends.namesBefore (h : o.Extends later) (hn : n ≤ o.definitions.length) :
    later.namesBefore n = o.namesBefore n := by
  obtain ⟨kept, ⟨added, hadded⟩, hkept⟩ := h.definitions
  have hnames := map_name_of_grows hkept
  rw [Outline.namesBefore, Outline.namesBefore, ← hadded, List.map_take, List.map_take, List.map_append,
    hnames, List.take_append_of_le_length (by rwa [List.length_map])]

/-- What leads goes on leading. -/
theorem Extends.leads (h : o.Extends later) (hd : o.Leads n d) : ∃ d', later.Leads n d' ∧ d.Grows d' := by
  obtain ⟨d', hstands, hgrows⟩ := h.stands hd.stands
  refine ⟨d', ⟨hstands, ?_⟩, hgrows⟩
  rw [hgrows.name_eq, h.namesBefore (Nat.le_of_lt (lt_length_of_stands hd.stands))]
  exact hd.first

/-- **A step leaves what is hidden as it is**, for it marks none but the first of a name. -/
theorem Step.isHidden (h : Step file i o later) (hd : o.IsHidden n d) : later.IsHidden n d := by
  have hn := lt_length_of_stands hd.stands
  refine ⟨?_, ?_⟩
  · cases h with
    | imports m hsource hnames => exact hd.stands
    | declares x e hitem he =>
        show (o.definitions ++ [e])[n]? = some d
        rw [List.getElem?_append_left hn, hd.stands]
    | enters e outer hfile hexported =>
        show (o.definitions ++ [e])[n]? = some d
        rw [List.getElem?_append_left hn, hd.stands]
    | marks front back e outer hsplit hfirst =>
        have hset : front ++ { e with exported := true } :: back
            = o.definitions.set front.length { e with exported := true } := by
          rw [hsplit, List.set_append_right _ _ (Nat.le_refl _), Nat.sub_self, List.set_cons_zero]
        have hne : front.length ≠ n := by
          rintro rfl
          obtain ⟨hstands, hbehind⟩ := hd
          rw [hsplit, List.getElem?_append_right (Nat.le_refl _), Nat.sub_self,
            List.getElem?_cons_zero] at hstands
          rw [namesBefore, hsplit, List.take_left] at hbehind
          obtain ⟨e', he', hname⟩ := List.mem_map.1 hbehind
          exact hfirst e' he' (Option.some.inj hstands ▸ hname)
        show (front ++ { e with exported := true } :: back)[n]? = some d
        rw [hset, List.getElem?_set_ne hne, hd.stands]
  · rw [h.extends.namesBefore (Nat.le_of_lt hn)]
    exact hd.behind

/-! ## Exports of what is first -/

/-- An export without a source is one of what leads under its name. -/
theorem exportName_of_leads (file : String) (hd : o.Leads n d) (hname : d.name = s.inner) :
    (exportName file true o s).definitions[n]? = some { d with exported := true } ∧
      (exportName file true o s).exports = o.exports ++ [⟨s.outer, d.kind⟩] := by
  have hfind : o.definitions.find? (·.name = s.inner) = some d :=
    find?_eq_some_iff_leads.2 ⟨hname, n, hd⟩
  have hfirst : ∀ e ∈ o.definitions.take n, e.name ≠ s.inner := by
    intro e he heq
    exact hd.first (hname ▸ heq ▸ List.mem_map_of_mem he)
  rw [exportName, if_pos rfl, hfind]
  refine ⟨?_, rfl⟩
  show (markFirst s.inner o.definitions)[n]? = _
  have hlength : (o.definitions.take n).length = n :=
    List.length_take_of_le (Nat.le_of_lt (lt_length_of_stands hd.stands))
  rw [definitions_eq_of_stands hd.stands, markFirst_append hfirst hname,
    List.getElem?_append_right (Nat.le_of_eq hlength), hlength, Nat.sub_self, List.getElem?_cons_zero]

theorem length_exports_foldl (file : String) (specifiers : List Specifier) (o : Outline) :
    (specifiers.foldl (exportName file true) o).exports.length = o.exports.length + specifiers.length := by
  have hnames := congrArg List.length (names_foldl_exportName file true specifiers o)
  rwa [List.length_append, List.length_map, List.length_map, List.length_map] at hnames

theorem add_of_exportsHere (h : i.exportsHere ≠ []) :
    o.add file i = i.exportsHere.foldl (exportName file true) o := by
  cases i with
  | exportingName inner place => rfl
  | exportingList source specifiers =>
      cases source with
      | none => rfl
      | some source => exact absurd rfl h
  | importing source names => exact absurd rfl h
  | exportingDeclaration x => exact absurd rfl h
  | exportingValue => exact absurd rfl h
  | declaring x => exact absurd rfl h

/-- Whether items go on after the first of them, `before`, with one that declares a definition. -/
def Declares (file : String) (xs before : List Item) (d : Definition) : Prop :=
  ∃ x rest, xs = before ++ x :: rest ∧ x.declared file = some d

/-- The index of what is defined next after some items. -/
def indexAfter (file : String) (before : List Item) : Nat := (ofItems file before).definitions.length

theorem stands_ofItems_of_declared (before : List Item) {x : Item} (hx : x.declared file = some d) :
    (ofItems file (before ++ [x])).definitions[indexAfter file before]? = some d := by
  rw [ofItems_append, List.foldl_cons, List.foldl_nil, definitions_add_of_declared hx, indexAfter,
    List.getElem?_concat_length]

theorem namesBefore_ofItems_of_declared (before : List Item) {x : Item} (hx : x.declared file = some d) :
    (ofItems file (before ++ [x])).namesBefore (indexAfter file before)
      = (ofItems file before).definitions.map (·.name) := by
  rw [ofItems_append, List.foldl_cons, List.foldl_nil, namesBefore, definitions_add_of_declared hx,
    indexAfter, List.take_left]

/-- A declaration keeps its index, and may be marked. -/
theorem Declares.grows (h : Declares file xs before d) (more : List Item) :
    ∃ d', (ofItems file (xs ++ more)).definitions[indexAfter file before]? = some d' ∧ d.Grows d' := by
  obtain ⟨x, rest, rfl, hx⟩ := h
  rw [List.append_cons, List.append_assoc, ofItems_append]
  exact (extends_foldl_add _ _).stands (stands_ofItems_of_declared before hx)

/-- One that is the first of its name goes on leading. -/
theorem Declares.leads (h : Declares file xs before d)
    (hfirst : d.name ∉ (ofItems file before).definitions.map (·.name)) :
    ∃ d', (ofItems file xs).Leads (indexAfter file before) d' ∧ d.Grows d' := by
  obtain ⟨x, rest, rfl, hx⟩ := h
  rw [← namesBefore_ofItems_of_declared before hx] at hfirst
  rw [List.append_cons, ofItems_append]
  exact (extends_foldl_add rest _).leads ⟨stands_ofItems_of_declared before hx, hfirst⟩

/-- One that is not is never marked. -/
theorem Declares.isHidden (h : Declares file xs before d)
    (hbehind : d.name ∈ (ofItems file before).definitions.map (·.name)) (more : List Item) :
    (ofItems file (xs ++ more)).IsHidden (indexAfter file before) d := by
  obtain ⟨x, rest, rfl, hx⟩ := h
  rw [← namesBefore_ofItems_of_declared before hx] at hbehind
  rw [List.append_cons, List.append_assoc, ofItems_append]
  exact holds_foldl_add (fun _ _ _ _ hstep hd => hstep.isHidden hd)
    ⟨stands_ofItems_of_declared before hx, hbehind⟩

/-- What leads is marked by an export of its name, and the export is of its kind. -/
theorem Leads.exported {earlier rest : List Specifier} (ys : List Item)
    (hs : i.exportsHere = earlier ++ s :: rest) (hd : (ofItems file xs).Leads n d)
    (hname : d.name = s.inner) :
    (ofItems file (xs ++ i :: ys)).definitions[n]? = some { d with exported := true } ∧
      (ofItems file (xs ++ i :: ys)).exports[(ofItems file xs).exports.length + earlier.length]?
        = some ⟨s.outer, d.kind⟩ := by
  have hne : i.exportsHere ≠ [] := hs ▸ List.append_ne_nil_of_right_ne_nil _ (List.cons_ne_nil _ _)
  have hbefore : (ofItems file xs).Extends (earlier.foldl (exportName file true) (ofItems file xs)) :=
    extends_foldl_add [.exportingList none earlier] _
  rw [ofItems_append, List.foldl_cons, add_of_exportsHere hne, hs, List.foldl_append, List.foldl_cons,
    ← length_exports_foldl file earlier]
  -- the entries before this one, and those after it, could be lists of their own
  generalize earlier.foldl (exportName file true) (ofItems file xs) = o at hbefore ⊢
  obtain ⟨d', hd', hgrows⟩ := hbefore.leads hd
  obtain ⟨hmarked, hrecorded⟩ := exportName_of_leads file hd' (hgrows.name_eq.trans hname)
  have hafter : (exportName file true o s).Extends
      (ys.foldl (add file) (rest.foldl (exportName file true) (exportName file true o s))) :=
    extends_foldl_add (.exportingList none rest :: ys) _
  constructor
  · obtain ⟨d'', hd'', hgrows'⟩ := hafter.stands hmarked
    rw [hd'', hgrows'.same, hgrows'.kept rfl, hgrows.same]
  · obtain ⟨more, hmore⟩ := hafter.exports
    rw [← hmore, hrecorded, List.append_assoc, hgrows.same, List.getElem?_append_right (Nat.le_refl _),
      Nat.sub_self]
    rfl

/-- Whether what is declared under a name is exported by an entry of an export list, whose export follows
    `n` others: every declaration of the name is marked, and the export is of the kind of one of them. -/
structure ExportsLocals (file : String) (xs : List Item) (s : Specifier) (n : Nat) (o : Outline) : Prop where
  marked   : ∀ before d, Declares file xs before d → d.name = s.inner →
    o.definitions[indexAfter file before]? = some { d with exported := true }
  recorded : ∃ before d, Declares file xs before d ∧ d.name = s.inner ∧
    o.exports[n]? = some ⟨s.outer, d.kind⟩

/-- Whether a name leads to all that is declared under it: what is not exported at once is the first of the
    name, and the first is of the kind of a declaration. -/
structure IsPlain (file : String) (xs : List Item) (name : String) : Prop where
  unhidden : ∀ before d, Declares file xs before d → d.name = name →
    d.exported = true ∨ name ∉ (ofItems file before).definitions.map (·.name)
  kind     : ∃ before d first, Declares file xs before d ∧ d.name = name ∧
    (ofItems file xs).definitions.find? (·.name = name) = some first ∧ first.kind = d.kind

/-- **An export of what was declared before marks every declaration of its name**, and is of the kind of one
    of them, just where nothing hides one. -/
theorem exportsLocals_iff {earlier rest : List Specifier} (hs : i.exportsHere = earlier ++ s :: rest)
    (hdeclared : ∃ before d, Declares file xs before d ∧ d.name = s.inner) :
    ExportsLocals file xs s ((ofItems file xs).exports.length + earlier.length)
        (ofItems file (xs ++ i :: ys)) ↔
      IsPlain file xs s.inner := by
  obtain ⟨first, hfind⟩ : ∃ first, (ofItems file xs).definitions.find? (·.name = s.inner) = some first := by
    obtain ⟨before, d, hd, hname⟩ := hdeclared
    obtain ⟨d', hd', hgrows⟩ := hd.grows []
    rw [List.append_nil] at hd'
    refine Option.isSome_iff_exists.1 (List.find?_isSome.2 ⟨d', List.mem_of_getElem? hd', ?_⟩)
    exact decide_eq_true (hgrows.name_eq.trans hname)
  obtain ⟨hfirst, n, hleads⟩ := find?_eq_some_iff_leads.1 hfind
  have hrecord := (hleads.exported ys hs hfirst).2
  constructor
  · intro h
    refine ⟨?_, ?_⟩
    · intro before d hd hname
      by_cases hbehind : s.inner ∈ (ofItems file before).definitions.map (·.name)
      · have hsame := (hd.isHidden (hname ▸ hbehind) (i :: ys)).stands.symm.trans (h.marked before d hd hname)
        exact .inl (congrArg (·.exported) (Option.some.inj hsame))
      · exact .inr hbehind
    · obtain ⟨before, d, hd, hname, hexport⟩ := h.recorded
      rw [hrecord] at hexport
      exact ⟨before, d, first, hd, hname, hfind, congrArg (·.kind) (Option.some.inj hexport)⟩
  · intro h
    refine ⟨?_, ?_⟩
    · intro before d hd hname
      rcases h.unhidden before d hd hname with hexported | hnew
      · obtain ⟨d', hd', hgrows⟩ := hd.grows (i :: ys)
        rw [hd', hgrows.same, hgrows.kept hexported]
      · obtain ⟨d', hd', hgrows⟩ := hd.leads (hname ▸ hnew)
        rw [(hd'.exported ys hs (hgrows.name_eq.trans hname)).1, hgrows.same]
    · obtain ⟨before, d, first', hd, hname, hfind', hkind⟩ := h.kind
      obtain rfl := Option.some.inj (hfind.symm.trans hfind')
      exact ⟨before, d, hd, hname, hkind ▸ hrecord⟩

/-- A function, and a name of another module that is exported again as the function's. -/
def shared : List Item :=
  [.declaring ⟨some "a", .function, "function a() \x7b\x7d", ⟨1, 1⟩⟩,
    .exportingList (some "./m") [⟨"x", "a", ⟨2, 10⟩⟩]]

/-- An export of a name that is not defined, and of `a` as `b`. -/
def exportingBoth : Item := .exportingList none [⟨"c", "c", ⟨3, 10⟩⟩, ⟨"a", "b", ⟨3, 13⟩⟩]

/-- The function is exported by the second entry, so its export follows two others. -/
theorem exportsLocals_iff_shared :
    exportingBoth.exportsHere = [⟨"c", "c", ⟨3, 10⟩⟩] ++ ⟨"a", "b", ⟨3, 13⟩⟩ :: [] ∧
      (∃ before d, Declares "a.ts" shared before d ∧ d.name = "a") ∧
      ExportsLocals "a.ts" shared ⟨"a", "b", ⟨3, 13⟩⟩ 2
        (ofItems "a.ts" (shared ++ exportingBoth :: [])) := by
  have hlist : exportingBoth.exportsHere = [⟨"c", "c", ⟨3, 10⟩⟩] ++ ⟨"a", "b", ⟨3, 13⟩⟩ :: [] := rfl
  have hfunction : Declares "a.ts" shared []
      ⟨"a.ts", "a", .function, false, "function a() \x7b\x7d", ⟨1, 1⟩⟩ :=
    ⟨_, _, rfl, by decide⟩
  have hplain : IsPlain "a.ts" shared "a" := by
    refine ⟨?_, _, _, _, hfunction, rfl, by decide, rfl⟩
    rintro before d ⟨x, rest, hsplit, hx⟩ hname
    cases before with
    | nil => exact .inr List.not_mem_nil
    | cons first more =>
        cases more with
        | nil =>
            obtain ⟨-, rfl, -⟩ := hsplit
            cases hx
        | cons second more =>
            cases more with
            | nil => cases hsplit
            | cons third more => cases hsplit
  exact ⟨hlist, ⟨_, _, hfunction, rfl⟩, (exportsLocals_iff hlist ⟨_, _, hfunction, rfl⟩).2 hplain⟩

/-- A name of another module that is exported again as `a`, and a function `a` after it. -/
def shadowed : List Item :=
  [.exportingList (some "./m") [⟨"x", "a", ⟨1, 10⟩⟩],
    .declaring ⟨some "a", .function, "function a() \x7b\x7d", ⟨2, 1⟩⟩]

/-- An interface and a constant of one name. -/
def merged : List Item :=
  [.declaring ⟨some "A", .interface, "interface A \x7b\x7d", ⟨1, 1⟩⟩,
    .declaring ⟨some "A", .binding, "const A = 1;", ⟨2, 1⟩⟩]

/-- The function is declared, and so is the constant, but an export of either name marks what was defined
    before it. -/
theorem exportsLocals_hidden :
    (Declares "a.ts" shadowed (shadowed.take 1)
        ⟨"a.ts", "a", .function, false, "function a() \x7b\x7d", ⟨2, 1⟩⟩ ∧
      ¬ ExportsLocals "a.ts" shadowed ⟨"a", "b", ⟨3, 10⟩⟩ 1
        (ofItems "a.ts" (shadowed ++ [.exportingList none [⟨"a", "b", ⟨3, 10⟩⟩]]))) ∧
      Declares "a.ts" merged (merged.take 1) ⟨"a.ts", "A", .binding, false, "const A = 1;", ⟨2, 1⟩⟩ ∧
      ¬ ExportsLocals "a.ts" merged ⟨"A", "A", ⟨3, 10⟩⟩ 0
        (ofItems "a.ts" (merged ++ [.exportingList none [⟨"A", "A", ⟨3, 10⟩⟩]])) := by
  have hfunction : Declares "a.ts" shadowed (shadowed.take 1)
      ⟨"a.ts", "a", .function, false, "function a() \x7b\x7d", ⟨2, 1⟩⟩ := ⟨_, _, rfl, by decide⟩
  have hconstant : Declares "a.ts" merged (merged.take 1)
      ⟨"a.ts", "A", .binding, false, "const A = 1;", ⟨2, 1⟩⟩ := ⟨_, _, rfl, by decide⟩
  refine ⟨⟨hfunction, ?_⟩, hconstant, ?_⟩
  · intro h
    exact absurd (h.marked _ _ hfunction rfl) (by decide)
  · intro h
    exact absurd (h.marked _ _ hconstant rfl) (by decide)

end Outline

end PatchReview
