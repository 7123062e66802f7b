import Mathlib.Data.List.Induction
import PatchReview.Proofs.Outline.Growth

/-!
# What an outline says of its items

An outline has the imports of its items and the names that they export, in their order (`imports_ofItems`,
`names_ofItems`), and its definitions stand in the order of the items that they come from
(`places_ofItems`). There is an exported definition for each export and an export for each exported
definition, of one kind each time, and no fewer exports than exported definitions (`IsBalanced`). What is
not exported was declared. Each of these is kept by every step, or by every item.
-/

namespace PatchReview

open Script (Item Declaration Specifier)

/-! ## What items have to say -/

/-- The places at which an item may have something to define, as they follow one another. -/
def Script.Item.places : Item → List Place
  | .importing _ _ => []
  | .exportingDeclaration d => (d.map (·.place)).toList
  | .exportingName _ place => [place]
  | .exportingValue => []
  | .exportingList _ specifiers => specifiers.map (·.place)
  | .declaring d => [d.place]

/-- The imports that an item notes. -/
def Script.Item.imported : Item → List Import
  | .importing (some source) names => if source.isEmpty then [] else [⟨source, names, false⟩]
  | .exportingList (some source) specifiers =>
    if source.isEmpty then [] else [⟨source, Outline.namesTaken specifiers, true⟩]
  | _ => []

/-- The names under which an item offers something. -/
def Script.Item.offered (file : String) : Item → List String
  | .exportingDeclaration x => ((x.bind (Outline.definitionOf file true)).map (·.name)).toList
  | .exportingName name _ => [name]
  | .exportingList _ specifiers => specifiers.map (·.outer)
  | _ => []

/-- Whether a place comes before another in a file. -/
def Place.IsBefore (p q : Place) : Prop := p.line < q.line ∨ p.line = q.line ∧ p.column < q.column

namespace Outline

variable {file : String} {i : Item} {items : List Item} {o later : Outline}

/-! ## Places -/

theorem map_place_markFirst (name : String) (ds : List Definition) :
    (markFirst name ds).map (·.place) = ds.map (·.place) := by
  induction ds with
  | nil => rfl
  | cons d rest ih =>
      rw [markFirst]
      split
      · rfl
      · rw [List.map_cons, ih, List.map_cons]

/-- An export enters a definition at its own place, or none. -/
theorem places_exportName (file : String) (here : Bool) (s : Specifier) (o : Outline) :
    ∃ added, added.Sublist [s.place] ∧
      (exportName file here o s).definitions.map (·.place) = o.definitions.map (·.place) ++ added := by
  rw [exportName]
  split
  · refine ⟨[], List.nil_sublist _, ?_⟩
    rw [List.append_nil]
    exact map_place_markFirst s.inner o.definitions
  · exact ⟨[s.place], List.Sublist.refl _, List.map_append⟩

theorem places_foldl_exportName (file : String) (here : Bool) (specifiers : List Specifier) (o : Outline) :
    ∃ added, added.Sublist (specifiers.map (·.place)) ∧
      (specifiers.foldl (exportName file here) o).definitions.map (·.place)
        = o.definitions.map (·.place) ++ added := by
  induction specifiers generalizing o with
  | nil => exact ⟨[], List.Sublist.refl [], (List.append_nil _).symm⟩
  | cons s rest ih =>
      obtain ⟨first, hfirst, hdefinitions⟩ := places_exportName file here s o
      obtain ⟨more, hmore, hall⟩ := ih (exportName file here o s)
      refine ⟨first ++ more, hfirst.append hmore, ?_⟩
      rw [List.foldl_cons, hall, hdefinitions, List.append_assoc]

theorem definitions_addImport (source : Option String) (names : List String) (reexport : Bool)
    (o : Outline) : (o.addImport source names reexport).definitions = o.definitions := by
  cases source with
  | none => rfl
  | some source =>
      rw [addImport]
      split <;> rfl

/-- What a declaration gives stands where it does. -/
theorem places_addDefinition (file : String) (exported : Bool) (x : Declaration) (o : Outline) :
    ∃ added, added.Sublist [x.place] ∧
      (o.addDefinition (definitionOf file exported x)).definitions.map (·.place)
        = o.definitions.map (·.place) ++ added := by
  cases hd : definitionOf file exported x with
  | none => exact ⟨[], List.nil_sublist _, (List.append_nil _).symm⟩
  | some d =>
      obtain ⟨name, -, -, rfl⟩ := definitionOf_eq_some_iff.1 hd
      exact ⟨[x.place], List.Sublist.refl _, List.map_append⟩

/-- **An item defines something at its own places**, one after another. -/
theorem places_add (file : String) (i : Item) (o : Outline) :
    ∃ added, added.Sublist i.places ∧
      (o.add file i).definitions.map (·.place) = o.definitions.map (·.place) ++ added := by
  have hnone : ∀ ps : List Place, ∃ added, added.Sublist ps ∧
      o.definitions.map (·.place) = o.definitions.map (·.place) ++ added :=
    fun ps => ⟨[], List.nil_sublist ps, (List.append_nil _).symm⟩
  cases i with
  | importing source names =>
      rw [add, definitions_addImport]
      exact hnone _
  | exportingDeclaration x =>
      cases x with
      | none => exact hnone _
      | some x => exact places_addDefinition file true x o
  | exportingName name place => exact places_exportName file true ⟨name, name, place⟩ o
  | exportingValue => exact hnone _
  | exportingList source specifiers =>
      obtain ⟨added, hadded, hplaces⟩ := places_foldl_exportName file source.isNone specifiers
        (o.addImport source (namesTaken specifiers) true)
      rw [definitions_addImport] at hplaces
      exact ⟨added, hadded, hplaces⟩
  | declaring x => exact places_addDefinition file false x o

/-- **Definitions follow the items.** -/
theorem places_ofItems (file : String) (items : List Item) :
    ((ofItems file items).definitions.map (·.place)).Sublist (items.flatMap Item.places) := by
  induction items using List.reverseRecOn with
  | nil => exact List.nil_sublist _
  | append_singleton items i ih =>
      obtain ⟨added, hadded, hplaces⟩ := places_add file i (ofItems file items)
      rw [ofItems_append, List.foldl_cons, List.foldl_nil, List.flatMap_append, List.flatMap_singleton]
      exact hplaces ▸ ih.append hadded

/-! ## Names -/

theorem imports_foldl_exportName (file : String) (here : Bool) (specifiers : List Specifier) (o : Outline) :
    (specifiers.foldl (exportName file here) o).imports = o.imports := by
  induction specifiers generalizing o with
  | nil => rfl
  | cons s rest ih =>
      rw [List.foldl_cons, ih, exportName]
      split <;> rfl

/-- Each entry of a list is exported under its own name. -/
theorem names_foldl_exportName (file : String) (here : Bool) (specifiers : List Specifier) (o : Outline) :
    (specifiers.foldl (exportName file here) o).exports.map (·.name)
      = o.exports.map (·.name) ++ specifiers.map (·.outer) := by
  induction specifiers generalizing o with
  | nil => exact (List.append_nil _).symm
  | cons s rest ih =>
      have hone : (exportName file here o s).exports.map (·.name) = o.exports.map (·.name) ++ [s.outer] := by
        rw [exportName]
        split
        all_goals exact List.map_append
      rw [List.foldl_cons, ih, hone, List.append_assoc, List.singleton_append, List.map_cons]

theorem imports_addImport (source : String) (names : List String) (reexport : Bool) (o : Outline) :
    (o.addImport (some source) names reexport).imports
      = o.imports ++ if source.isEmpty then [] else [⟨source, names, reexport⟩] := by
  rw [addImport]
  by_cases hempty : source.isEmpty = true
  · rw [if_pos hempty, if_pos hempty, List.append_nil]
  · rw [if_neg hempty, if_neg hempty]

theorem exports_addImport (source : Option String) (names : List String) (reexport : Bool) (o : Outline) :
    (o.addImport source names reexport).exports = o.exports := by
  cases source with
  | none => rfl
  | some source =>
      rw [addImport]
      split <;> rfl

/-- An item notes its imports, one after another. -/
theorem imports_add (file : String) (i : Item) (o : Outline) :
    (o.add file i).imports = o.imports ++ i.imported := by
  cases i with
  | importing source names =>
      cases source with
      | none => exact (List.append_nil _).symm
      | some source => exact imports_addImport source names false o
  | exportingDeclaration x =>
      refine Eq.trans ?_ (List.append_nil _).symm
      rw [add]
      cases x.bind (definitionOf file true) <;> rfl
  | exportingName name place =>
      exact (imports_foldl_exportName file true [⟨name, name, place⟩] o).trans (List.append_nil _).symm
  | exportingValue => exact (List.append_nil _).symm
  | exportingList source specifiers =>
      rw [add, imports_foldl_exportName]
      cases source with
      | none => exact (List.append_nil _).symm
      | some source => exact imports_addImport source (namesTaken specifiers) true o
  | declaring x =>
      refine Eq.trans ?_ (List.append_nil _).symm
      rw [add]
      cases definitionOf file false x <;> rfl

/-- And offers its names. -/
theorem names_add (file : String) (i : Item) (o : Outline) :
    (o.add file i).exports.map (·.name) = o.exports.map (·.name) ++ i.offered file := by
  cases i with
  | importing source names =>
      rw [add, exports_addImport]
      exact (List.append_nil _).symm
  | exportingDeclaration x =>
      rw [add, Item.offered]
      cases hd : x.bind (definitionOf file true) with
      | none => exact (List.append_nil _).symm
      | some d =>
          obtain ⟨y, -, hy⟩ := Option.bind_eq_some_iff.1 hd
          rw [addDefinition, if_pos (exported_of_definitionOf hy)]
          exact List.map_append
  | exportingName name place => exact names_foldl_exportName file true [⟨name, name, place⟩] o
  | exportingValue => exact (List.append_nil _).symm
  | exportingList source specifiers =>
      rw [add, names_foldl_exportName, exports_addImport]
      rfl
  | declaring x =>
      refine Eq.trans ?_ (List.append_nil _).symm
      rw [add]
      cases hd : definitionOf file false x with
      | none => rfl
      | some d =>
          rw [addDefinition, exported_of_definitionOf hd]
          rfl

/-- **Imports and exported names are those of the items**, in their order. -/
theorem imports_ofItems (file : String) (items : List Item) :
    (ofItems file items).imports = items.flatMap Item.imported := by
  induction items using List.reverseRecOn with
  | nil => rfl
  | append_singleton items i ih =>
      rw [ofItems_append, List.foldl_cons, List.foldl_nil, imports_add, ih, List.flatMap_append,
        List.flatMap_singleton]

theorem names_ofItems (file : String) (items : List Item) :
    (ofItems file items).exports.map (·.name) = items.flatMap (Item.offered file) := by
  induction items using List.reverseRecOn with
  | nil => rfl
  | append_singleton items i ih =>
      rw [ofItems_append, List.foldl_cons, List.foldl_nil, names_add, ih, List.flatMap_append,
        List.flatMap_singleton]

/-! ## Marks, exports and imports -/

/-- Whether the marks of an outline fit its exports, and its imports say what they take from where. -/
structure IsBalanced (o : Outline) : Prop where
  offered : ∀ d ∈ o.definitions, d.exported = true → ∃ e ∈ o.exports, e.kind = d.kind
  defined : ∀ e ∈ o.exports, ∃ d ∈ o.definitions, d.exported = true ∧ d.kind = e.kind
  counted : o.definitions.countP (·.exported) ≤ o.exports.length
  sourced : ∀ m ∈ o.imports, m.source ≠ ""
  taken   : ∀ m ∈ o.imports, m.reexport = true → m.names ≠ []

theorem isBalanced_empty : empty.IsBalanced := by
  refine ⟨?_, ?_, Nat.le_refl 0, ?_, ?_⟩
  all_goals
    intro x hx
    cases hx

theorem IsBalanced.imports (h : o.IsBalanced) {m : Import} (hsource : m.source ≠ "")
    (hnames : m.reexport = true → m.names ≠ []) :
    IsBalanced { o with imports := o.imports ++ [m] } where
  offered := h.offered
  defined := h.defined
  counted := h.counted
  sourced := List.forall_mem_append.2 ⟨h.sourced, List.forall_mem_singleton.2 hsource⟩
  taken := List.forall_mem_append.2 ⟨h.taken, List.forall_mem_singleton.2 hnames⟩

/-- A definition that is not exported does not count. -/
theorem IsBalanced.declares (h : o.IsBalanced) {d : Definition} (hplain : d.exported = false) :
    IsBalanced { o with definitions := o.definitions ++ [d] } where
  offered := by
    refine List.forall_mem_append.2 ⟨h.offered, List.forall_mem_singleton.2 fun hexported => ?_⟩
    rw [hplain] at hexported
    cases hexported
  defined := by
    intro e he
    obtain ⟨d', hd', hexported⟩ := h.defined e he
    exact ⟨d', List.mem_append_left _ hd', hexported⟩
  counted := by
    show (o.definitions ++ [d]).countP (·.exported) ≤ o.exports.length
    rw [List.countP_append, List.countP_singleton, hplain]
    exact h.counted
  sourced := h.sourced
  taken := h.taken

/-- One that is exported comes with an export. -/
theorem IsBalanced.enters (h : o.IsBalanced) {d : Definition} (outer : String)
    (hexported : d.exported = true) :
    IsBalanced { o with
      definitions := o.definitions ++ [d]
      exports := o.exports ++ [⟨outer, d.kind⟩] } where
  offered := by
    have hnew : ∃ e ∈ o.exports ++ [⟨outer, d.kind⟩], e.kind = d.kind :=
      ⟨⟨outer, d.kind⟩, List.mem_concat_self, rfl⟩
    refine List.forall_mem_append.2 ⟨?_, List.forall_mem_singleton.2 fun _ => hnew⟩
    intro d' hd' hexported'
    obtain ⟨e, he, hkind⟩ := h.offered d' hd' hexported'
    exact ⟨e, List.mem_append_left _ he, hkind⟩
  defined := by
    refine List.forall_mem_append.2 ⟨?_, List.forall_mem_singleton.2 ?_⟩
    · intro e he
      obtain ⟨d', hd', hexported'⟩ := h.defined e he
      exact ⟨d', List.mem_append_left _ hd', hexported'⟩
    · exact ⟨d, List.mem_concat_self, hexported, rfl⟩
  counted := by
    show (o.definitions ++ [d]).countP (·.exported) ≤ (o.exports ++ [Export.mk outer d.kind]).length
    rw [List.countP_append, List.countP_singleton, hexported, List.length_append]
    exact Nat.add_le_add_right h.counted 1
  sourced := h.sourced
  taken := h.taken

/-- So does a mark. -/
theorem IsBalanced.marks (h : o.IsBalanced) {front back : List Definition} {d : Definition}
    (outer : String) (hsplit : o.definitions = front ++ d :: back) :
    IsBalanced { o with
      definitions := front ++ { d with exported := true } :: back
      exports := o.exports ++ [⟨outer, d.kind⟩] } where
  offered := by
    have hold := h.offered
    rw [hsplit, List.forall_mem_append, List.forall_mem_cons] at hold
    have hkeep : ∀ {d' : Definition}, (d'.exported = true → ∃ e ∈ o.exports, e.kind = d'.kind) →
        d'.exported = true → ∃ e ∈ o.exports ++ [⟨outer, d.kind⟩], e.kind = d'.kind := by
      intro d' hd' hexported
      obtain ⟨e, he, hkind⟩ := hd' hexported
      exact ⟨e, List.mem_append_left _ he, hkind⟩
    refine List.forall_mem_append.2 ⟨fun d' hd' => hkeep (hold.1 d' hd'), List.forall_mem_cons.2 ⟨?_, ?_⟩⟩
    · intro _
      exact ⟨⟨outer, d.kind⟩, List.mem_concat_self, rfl⟩
    · exact fun d' hd' => hkeep (hold.2.2 d' hd')
  defined := by
    have hmarked : { d with exported := true } ∈ front ++ { d with exported := true } :: back :=
      List.mem_append_right _ List.mem_cons_self
    refine List.forall_mem_append.2 ⟨?_, List.forall_mem_singleton.2 ⟨_, hmarked, rfl, rfl⟩⟩
    intro e he
    obtain ⟨d', hd', hexported, hkind⟩ := h.defined e he
    rw [hsplit, List.mem_append, List.mem_cons] at hd'
    rcases hd' with hin | rfl | hin
    · exact ⟨d', List.mem_append_left _ hin, hexported, hkind⟩
    · exact ⟨_, hmarked, rfl, hkind⟩
    · exact ⟨d', List.mem_append_right _ (List.mem_cons_of_mem _ hin), hexported, hkind⟩
  counted := by
    show (front ++ { d with exported := true } :: back).countP (·.exported)
      ≤ (o.exports ++ [Export.mk outer d.kind]).length
    have hcounted := h.counted
    rw [hsplit, List.countP_append, List.countP_cons] at hcounted
    rw [List.countP_append, List.countP_cons, List.length_append, List.length_singleton, if_pos rfl]
    omega
  sourced := h.sourced
  taken := h.taken

/-- **A step keeps marks and exports in balance.** -/
theorem Step.isBalanced (h : Step file i o later) (ho : o.IsBalanced) : later.IsBalanced := by
  cases h with
  | imports m hsource hnames => exact ho.imports hsource hnames
  | declares x d hitem hd => exact ho.declares (exported_of_definitionOf hd)
  | enters d outer hfile hexported => exact ho.enters outer hexported
  | marks front back d outer hsplit hfirst => exact ho.marks outer hsplit

/-- What is not exported comes from a declaration. -/
def IsDeclared (file : String) (items : List Item) (o : Outline) : Prop :=
  ∀ d ∈ o.definitions, d.exported = false →
    ∃ x, Item.declaring x ∈ items ∧ definitionOf file false x = some d

theorem Step.isDeclared (hi : i ∈ items) (h : Step file i o later) (ho : o.IsDeclared file items) :
    later.IsDeclared file items := by
  cases h with
  | imports m hsource hnames => exact ho
  | declares x d hitem hd =>
      refine List.forall_mem_append.2 ⟨ho, List.forall_mem_singleton.2 fun _ => ?_⟩
      exact ⟨x, hitem ▸ hi, hd⟩
  | enters d outer hfile hexported =>
      refine List.forall_mem_append.2 ⟨ho, List.forall_mem_singleton.2 fun hplain => ?_⟩
      rw [hexported] at hplain
      cases hplain
  | marks front back d outer hsplit hfirst =>
      rw [IsDeclared, hsplit, List.forall_mem_append, List.forall_mem_cons] at ho
      refine List.forall_mem_append.2 ⟨ho.1, List.forall_mem_cons.2 ⟨?_, ho.2.2⟩⟩
      intro hplain
      cases hplain

/-! ## Outlines of items -/

/-- Whether an outline accounts for items: what they declare, import and export is in it, definitions stand
    where the items do and in their order, marks and exports fit together, and what is not exported was
    declared. -/
structure IsOutlineOf (file : String) (items : List Item) (o : Outline) : Prop
    extends IsBalanced o where
  listed   : ∀ i ∈ items, ∀ d, i.declared file = some d → ∃ d' ∈ o.definitions, d.Grows d'
  noted    : o.imports = items.flatMap Item.imported
  named    : o.exports.map (·.name) = items.flatMap (Item.offered file)
  placed   : (o.definitions.map (·.place)).Sublist (items.flatMap Item.places)
  ordered  : (items.flatMap Item.places).Pairwise Place.IsBefore →
    (o.definitions.map (·.place)).Pairwise Place.IsBefore
  declared : o.IsDeclared file items

/-- Every outline accounts for its items. -/
theorem isOutlineOf_ofItems (file : String) (items : List Item) :
    (ofItems file items).IsOutlineOf file items := by
  have hbalanced : (ofItems file items).IsBalanced :=
    holds_foldl_add (fun _ _ _ _ hstep h => hstep.isBalanced h) isBalanced_empty
  have hdeclared : (ofItems file items).IsDeclared file items := by
    refine holds_foldl_add (fun i hi _ _ hstep h => hstep.isDeclared hi h) ?_
    intro d hd
    exact absurd hd List.not_mem_nil
  have hplaced := places_ofItems file items
  exact
    { toIsBalanced := hbalanced
      listed := fun i hi d hd => mem_ofItems_of_declared hi hd
      noted := imports_ofItems file items
      named := names_ofItems file items
      placed := hplaced
      ordered := fun hordered => hordered.sublist hplaced
      declared := hdeclared }

/-- **The outline of more items extends that of the first of them**, but for marks that are added, and
    every outline accounts for its items. -/
theorem ofItems_extends (file : String) (items more : List Item) :
    (ofItems file items).Extends (ofItems file (items ++ more)) ∧
      (ofItems file items).IsOutlineOf file items := by
  refine ⟨?_, isOutlineOf_ofItems file items⟩
  rw [ofItems_append]
  exact extends_foldl_add more _

end Outline

end PatchReview
