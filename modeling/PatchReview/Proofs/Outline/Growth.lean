import Mathlib.Data.List.Forall2
import PatchReview.Proofs.Outline

/-!
# How an outline grows

No step takes anything away. A definition may be marked as exported, and the mark stays (`Grows`); what is
added comes last. So the outline of more items extends that of the first of them (`extends_foldl_add`).
-/

namespace PatchReview

open Script (Item)

/-- Whether a definition is a later state of another: the same but for the mark of an export, which is
    never taken away. -/
structure Definition.Grows (d later : Definition) : Prop where
  same : later = { d with exported := later.exported }
  kept : d.exported = true → later.exported = true

theorem Definition.Grows.refl (d : Definition) : d.Grows d := ⟨rfl, id⟩

theorem Definition.grows_marked (d : Definition) : d.Grows { d with exported := true } :=
  ⟨rfl, fun _ => rfl⟩

theorem Definition.Grows.name_eq {d later : Definition} (h : d.Grows later) : later.name = d.name := by
  rw [h.same]

theorem Definition.Grows.trans {d later last : Definition} (h : d.Grows later) (h' : later.Grows last) :
    d.Grows last where
  same := by
    rw [h'.same, h.same]
  kept := fun hexported => h'.kept (h.kept hexported)

/-- The definition that an item declares, if it declares one. -/
def Script.Item.declared (file : String) : Item → Option Definition
  | .exportingDeclaration x => x.bind (Outline.definitionOf file true)
  | .declaring x => Outline.definitionOf file false x
  | _ => none

namespace Outline

variable {file : String} {i : Item} {o later last : Outline} {d : Definition} {n : Nat}

/-- Whether an outline extends another: its definitions start with those of the other, some of them with
    a mark more, and its imports and exports start with those of the other. -/
structure Extends (o later : Outline) : Prop where
  definitions : ∃ kept, kept <+: later.definitions ∧ List.Forall₂ Definition.Grows o.definitions kept
  imports     : o.imports <+: later.imports
  exports     : o.exports <+: later.exports

theorem forall₂_grows_refl (ds : List Definition) : List.Forall₂ Definition.Grows ds ds :=
  List.forall₂_same.2 fun d _ => .refl d

theorem forall₂_grows_trans {ds ds' ds'' : List Definition} (h : List.Forall₂ Definition.Grows ds ds')
    (h' : List.Forall₂ Definition.Grows ds' ds'') : List.Forall₂ Definition.Grows ds ds'' := by
  induction h generalizing ds'' with
  | nil => exact h'
  | cons hfirst _ ih =>
      cases h' with
      | cons hfirst' hrest' => exact .cons (hfirst.trans hfirst') (ih hrest')

theorem Extends.refl (o : Outline) : o.Extends o where
  definitions := ⟨o.definitions, List.prefix_rfl, forall₂_grows_refl o.definitions⟩
  imports := List.prefix_rfl
  exports := List.prefix_rfl

theorem Extends.trans (h : o.Extends later) (h' : later.Extends last) : o.Extends last where
  definitions := by
    obtain ⟨kept, ⟨added, hadded⟩, hkept⟩ := h.definitions
    obtain ⟨kept', hprefix, hkept'⟩ := h'.definitions
    rw [← hadded] at hkept'
    -- what was kept first is kept again, at the same places
    have htake := List.forall₂_take kept.length hkept'
    rw [List.take_left] at htake
    exact ⟨kept'.take kept.length, (List.take_prefix _ _).trans hprefix, forall₂_grows_trans hkept htake⟩
  imports := h.imports.trans h'.imports
  exports := h.exports.trans h'.exports

theorem Step.extends (h : Step file i o later) : o.Extends later := by
  cases h with
  | imports m hsource hnames =>
      exact ⟨(Extends.refl o).definitions, List.prefix_append _ _, List.prefix_rfl⟩
  | declares x d hitem hd =>
      exact ⟨⟨o.definitions, List.prefix_append _ _, forall₂_grows_refl o.definitions⟩,
        List.prefix_rfl, List.prefix_rfl⟩
  | enters d outer hfile hexported =>
      exact ⟨⟨o.definitions, List.prefix_append _ _, forall₂_grows_refl o.definitions⟩,
        List.prefix_rfl, List.prefix_append _ _⟩
  | marks front back d outer hsplit hfirst =>
      refine ⟨⟨_, List.prefix_rfl, ?_⟩, List.prefix_rfl, List.prefix_append _ _⟩
      rw [hsplit]
      exact List.rel_append (forall₂_grows_refl front) (.cons d.grows_marked (forall₂_grows_refl back))

theorem ofItems_append (file : String) (xs ys : List Item) :
    ofItems file (xs ++ ys) = ys.foldl (add file) (ofItems file xs) := by
  rw [ofItems, ofItems, List.foldl_append]

/-- **The outline of more items extends that of the first of them.** -/
theorem extends_foldl_add (items : List Item) (o : Outline) : o.Extends (items.foldl (add file) o) :=
  holds_foldl_add (fun _ _ _ _ hstep h => h.trans hstep.extends) (.refl o)

/-! ## What items declare -/

theorem definitions_add_of_declared (h : i.declared file = some d) :
    (o.add file i).definitions = o.definitions ++ [d] := by
  cases i with
  | exportingDeclaration x =>
      have hx : x.bind (definitionOf file true) = some d := h
      rw [add, hx, addDefinition]
  | declaring x =>
      have hx : definitionOf file false x = some d := h
      rw [add, hx, addDefinition]
  | exportingName inner place => cases h
  | exportingList source specifiers => cases h
  | importing source names => cases h
  | exportingValue => cases h

/-- What stands in an outline stands at the same index in any that extends it. -/
theorem Extends.stands (h : o.Extends later) (hd : o.definitions[n]? = some d) :
    ∃ d', later.definitions[n]? = some d' ∧ d.Grows d' := by
  obtain ⟨kept, ⟨added, hadded⟩, hkept⟩ := h.definitions
  obtain ⟨hn, rfl⟩ := List.getElem?_eq_some_iff.1 hd
  have hn' : n < kept.length := hkept.length_eq ▸ hn
  refine ⟨kept[n], ?_, hkept.get hn hn'⟩
  rw [← hadded, List.getElem?_append_left hn', List.getElem?_eq_getElem hn']

/-- **What an item declares is listed**, and may be marked. -/
theorem mem_ofItems_of_declared {items : List Item} (hi : i ∈ items) (hd : i.declared file = some d) :
    ∃ d' ∈ (ofItems file items).definitions, d.Grows d' := by
  obtain ⟨before, after, rfl⟩ := List.append_of_mem hi
  have hlisted : (((ofItems file before).add file i).definitions)[(ofItems file before).definitions.length]?
      = some d := by
    rw [definitions_add_of_declared hd, List.getElem?_concat_length]
  obtain ⟨d', hd', hgrows⟩ := (extends_foldl_add after _).stands hlisted
  rw [ofItems_append, List.foldl_cons]
  exact ⟨d', List.mem_of_getElem? hd', hgrows⟩

end Outline

end PatchReview
