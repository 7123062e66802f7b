import Mathlib.Logic.Relation
import PatchReview.Outline

/-!
# The steps of an outline

Every item changes an outline by steps of four kinds (`Step`): it notes an import, enters a definition with
or without an export of it, or exports the first definition of a name, which it marks. So what one step
keeps holds of every outline (`holds_foldl_add`), as that every definition names the file that was read
(`file_of_mem_ofSource`).
-/

namespace PatchReview.Outline

open Script (Item Declaration Specifier)

variable {file : String} {i : Item} {o later : Outline}

/-- A declaration gives a definition under its name, if it gives one that is not empty. -/
theorem definitionOf_eq_some_iff {exported : Bool} {x : Declaration} {d : Definition} :
    definitionOf file exported x = some d ↔
      ∃ name, x.name = some name ∧ name ≠ "" ∧
        d = ⟨file, name, x.kind, exported, cut x.text, x.place⟩ := by
  rw [definitionOf]
  cases x.name with
  | none => simp
  | some name =>
      show (if name.isEmpty then none else some _) = some d ↔ _
      rw [Option.ite_none_left_eq_some, String.isEmpty_iff]
      constructor
      · rintro ⟨hne, hd⟩
        exact ⟨name, rfl, hne, (Option.some.inj hd).symm⟩
      · rintro ⟨name', hname, hne, rfl⟩
        obtain rfl := Option.some.inj hname
        exact ⟨hne, rfl⟩

theorem file_of_definitionOf {exported : Bool} {x : Declaration} {d : Definition}
    (h : definitionOf file exported x = some d) : d.file = file := by
  obtain ⟨name, -, -, rfl⟩ := definitionOf_eq_some_iff.1 h
  rfl

theorem exported_of_definitionOf {exported : Bool} {x : Declaration} {d : Definition}
    (h : definitionOf file exported x = some d) : d.exported = exported := by
  obtain ⟨name, -, -, rfl⟩ := definitionOf_eq_some_iff.1 h
  rfl

/-- What an item may do to an outline in one step: note an import that names a module, and names if it is
    exported again; enter what it declares; enter a definition as exported and export it; or export the
    first definition of a name and mark it. -/
inductive Step (file : String) (i : Item) (o : Outline) : Outline → Prop where
  | imports (m : Import) (hsource : m.source ≠ "") (hnames : m.reexport = true → m.names ≠ []) :
      Step file i o { o with imports := o.imports ++ [m] }
  | declares (x : Declaration) (d : Definition) (hitem : i = .declaring x)
      (hd : definitionOf file false x = some d) :
      Step file i o { o with definitions := o.definitions ++ [d] }
  | enters (d : Definition) (outer : String) (hfile : d.file = file) (hexported : d.exported = true) :
      Step file i o
        { o with definitions := o.definitions ++ [d], exports := o.exports ++ [⟨outer, d.kind⟩] }
  | marks (front back : List Definition) (d : Definition) (outer : String)
      (hsplit : o.definitions = front ++ d :: back) (hfirst : ∀ e ∈ front, e.name ≠ d.name) :
      Step file i o
        { o with
          definitions := front ++ { d with exported := true } :: back
          exports := o.exports ++ [⟨outer, d.kind⟩] }

/-- The first definition of a name is the one that is marked. -/
theorem markFirst_append {name : String} {front back : List Definition} {d : Definition}
    (hfront : ∀ e ∈ front, e.name ≠ name) (hd : d.name = name) :
    markFirst name (front ++ d :: back) = front ++ { d with exported := true } :: back := by
  induction front with
  | nil => rw [List.nil_append, markFirst, if_pos hd, List.nil_append]
  | cons e rest ih =>
      obtain ⟨hne, hrest⟩ := List.forall_mem_cons.1 hfront
      rw [List.cons_append, markFirst, if_neg hne, ih hrest, List.cons_append]

theorem namesTaken_ne_nil (specifiers : List Specifier) : namesTaken specifiers ≠ [] := by
  rw [namesTaken]
  split
  · exact List.cons_ne_nil _ _
  · rename_i hsome
    intro hnil
    rw [List.map_eq_nil_iff] at hnil
    exact hsome (List.isEmpty_iff.2 hnil)

theorem step_exportName (here : Bool) (s : Specifier) : Step file i o (exportName file here o s) := by
  rw [exportName]
  split
  · rename_i d hfind
    obtain ⟨-, hfind⟩ := Option.ite_none_right_eq_some.1 hfind
    obtain ⟨hname, front, back, hsplit, hfront⟩ := List.find?_eq_some_iff_append.1 hfind
    have hd : d.name = s.inner := of_decide_eq_true hname
    have hfirst : ∀ e ∈ front, e.name ≠ s.inner := by
      intro e he
      simpa using hfront e he
    rw [hsplit, markFirst_append hfirst hd]
    exact .marks front back d s.outer hsplit (hd ▸ hfirst)
  · exact .enters (placeholder file s.outer s.place) s.outer rfl rfl

theorem steps_addImport (source : Option String) {names : List String} {reexport : Bool}
    (hnames : reexport = true → names ≠ []) :
    Relation.ReflTransGen (Step file i) o (o.addImport source names reexport) := by
  cases source with
  | none => exact .refl
  | some source =>
      rw [addImport]
      by_cases hempty : source.isEmpty = true
      · rw [if_pos hempty]
      · rw [if_neg hempty]
        refine .single (.imports ⟨source, names, reexport⟩ ?_ hnames)
        rintro rfl
        exact hempty rfl

theorem steps_addDefinition {d? : Option Definition} (hstep : ∀ d ∈ d?, Step file i o (o.addDefinition d)) :
    Relation.ReflTransGen (Step file i) o (o.addDefinition d?) := by
  cases d? with
  | none => exact .refl
  | some d => exact .single (hstep d rfl)

theorem steps_foldl_exportName (here : Bool) (specifiers : List Specifier) :
    Relation.ReflTransGen (Step file i) o (specifiers.foldl (exportName file here) o) := by
  induction specifiers generalizing o with
  | nil => exact .refl
  | cons s rest ih => exact (Relation.ReflTransGen.single (step_exportName here s)).trans ih

/-- **An item changes an outline by such steps only.** -/
theorem steps_add (file : String) (i : Item) (o : Outline) :
    Relation.ReflTransGen (Step file i) o (o.add file i) := by
  cases i with
  | importing source names => exact steps_addImport source fun h => absurd h Bool.false_ne_true
  | exportingDeclaration x =>
      refine steps_addDefinition ?_
      intro d hd
      obtain ⟨x, -, hx⟩ := Option.bind_eq_some_iff.1 hd
      have hexported := exported_of_definitionOf hx
      rw [addDefinition, if_pos hexported]
      exact .enters d d.name (file_of_definitionOf hx) hexported
  | exportingName name place => exact .single (step_exportName true ⟨name, name, place⟩)
  | exportingValue => exact .refl
  | exportingList source specifiers =>
      exact (steps_addImport source fun _ => namesTaken_ne_nil specifiers).trans
        (steps_foldl_exportName source.isNone specifiers)
  | declaring x =>
      refine steps_addDefinition ?_
      intro d hd
      rw [addDefinition, exported_of_definitionOf hd]
      exact .declares x d rfl hd

/-- **What every step keeps holds of the outline of more items.** -/
theorem holds_foldl_add {items : List Item} {holds : Outline → Prop}
    (hstep : ∀ i ∈ items, ∀ o later, Step file i o later → holds o → holds later) (h : holds o) :
    holds (items.foldl (add file) o) := by
  induction items generalizing o with
  | nil => exact h
  | cons i rest ih =>
      obtain ⟨hfirst, hrest⟩ := List.forall_mem_cons.1 hstep
      refine ih hrest ?_
      have hsteps := steps_add file i o
      generalize o.add file i = later at hsteps
      induction hsteps with
      | refl => exact h
      | tail _ hlast hmiddle => exact hfirst _ _ hlast hmiddle

/-! ## Whose definitions an outline has -/

/-- Whether all definitions of an outline name a file. -/
def IsOf (file : String) (o : Outline) : Prop := ∀ d ∈ o.definitions, d.file = file

theorem Step.isOf (h : Step file i o later) (ho : o.IsOf file) : later.IsOf file := by
  cases h with
  | imports m hsource hnames => exact ho
  | declares x d hitem hd =>
      exact List.forall_mem_append.2 ⟨ho, List.forall_mem_singleton.2 (file_of_definitionOf hd)⟩
  | enters d outer hfile hexported =>
      exact List.forall_mem_append.2 ⟨ho, List.forall_mem_singleton.2 hfile⟩
  | marks front back d outer hsplit hfirst =>
      rw [IsOf, hsplit] at ho
      obtain ⟨hfront, hrest⟩ := List.forall_mem_append.1 ho
      obtain ⟨hd, hback⟩ := List.forall_mem_cons.1 hrest
      exact List.forall_mem_append.2 ⟨hfront, List.forall_mem_cons.2 ⟨hd, hback⟩⟩

/-- **Every definition of an outline names the file that was read.** -/
theorem file_of_mem_ofSource {dialect : Script.Dialect} {bytes : ByteArray} {o : Outline}
    (h : ofSource dialect file bytes = some o) : ∀ d ∈ o.definitions, d.file = file := by
  obtain ⟨items, -, rfl⟩ := Option.map_eq_some_iff.1 h
  have hempty : IsOf file empty := fun d hd => absurd hd List.not_mem_nil
  exact holds_foldl_add (fun _ _ _ _ hstep ho => hstep.isOf ho) hempty

end PatchReview.Outline
