import PatchReview.Proofs.Json.Literal
import PatchReview.Record.Reader

/-!
# What is read keeps its limits

A record is read field by field, and there is a value only if there is one for each field
(`Checked.seq_eq_ok_iff`). The value of a field is its default or was read, and what was read lies
within the limits of its reader.
-/

namespace PatchReview.Record

variable {α β : Type}

namespace Checked

theorem seq_eq_ok_iff {f : Checked (α → β)} {x : Checked α} {b : β} :
    f <*> x = .ok b ↔ ∃ g a, f = .ok g ∧ x = .ok a ∧ g a = b := by
  show f.apply x = .ok b ↔ _
  constructor
  · intro h
    cases f with
    | ok g =>
        cases x with
        | ok a => exact ⟨g, a, rfl, rfl, ok.inj h⟩
        | bad issues => exact nomatch h
    | bad issues => cases x <;> exact nomatch h
  · rintro ⟨g, a, rfl, rfl, rfl⟩
    rfl

theorem map_eq_ok_iff {g : α → β} {x : Checked α} {b : β} :
    g <$> x = .ok b ↔ ∃ a, x = .ok a ∧ g a = b := by
  show Checked.ok g <*> x = .ok b ↔ _
  rw [seq_eq_ok_iff]
  constructor
  · rintro ⟨g', a, hg, hx, hb⟩
    obtain rfl := ok.inj hg
    exact ⟨a, hx, hb⟩
  · rintro ⟨a, hx, hb⟩
    exact ⟨g, a, rfl, hx, hb⟩

theorem andThen_eq_ok_iff {x : Checked α} {f : α → Checked β} {b : β} :
    x.andThen f = .ok b ↔ ∃ a, x = .ok a ∧ f a = .ok b := by
  cases x with
  | ok a => exact ⟨fun h => ⟨a, rfl, h⟩, fun ⟨a', ha, h⟩ => ok.inj ha ▸ h⟩
  | bad issues => exact ⟨fun h => (nomatch h), fun ⟨a, ha, h⟩ => (nomatch ha)⟩

theorem under_eq_ok_iff {step : Step} {x : Checked α} {a : α} : x.under step = .ok a ↔ x = .ok a := by
  cases x with
  | ok a' => rfl
  | bad issues => exact ⟨fun h => (nomatch h), fun h => (nomatch h)⟩

end Checked

/-- A string is read back from its value, be it a text or not. -/
theorem string_ofLiteral (s : Json.Literal) : string (.ofLiteral s) = .ok s := by
  unfold Json.ofLiteral
  split
  · rename_i t h
    exact congrArg Checked.ok (Json.ofString_of_text? h)
  · rfl

/-- What is read above a limit lies above it. -/
theorem lt_of_integerAbove {limit n : Int} {j : Json} (h : integerAbove limit j = .ok n) :
    limit < n := by
  obtain ⟨m, -, hm⟩ := Checked.andThen_eq_ok_iff.1 h
  by_cases hlimit : limit < m
  · rw [if_pos hlimit] at hm
    exact Checked.ok.inj hm ▸ hlimit
  · rw [if_neg hlimit] at hm
    exact nomatch hm

/-- What is read from a limit on does not lie below it. -/
theorem le_of_integerAtLeast {limit n : Int} {j : Json} (h : integerAtLeast limit j = .ok n) :
    limit ≤ n := by
  obtain ⟨m, -, hm⟩ := Checked.andThen_eq_ok_iff.1 h
  by_cases hlimit : limit ≤ m
  · rw [if_pos hlimit] at hm
    exact Checked.ok.inj hm ▸ hlimit
  · rw [if_neg hlimit] at hm
    exact nomatch hm

/-- A text that must not be empty is not. -/
theorem ne_empty_of_nonEmptyText {s : String} {j : Json} (h : nonEmptyText j = .ok s) : s ≠ "" := by
  obtain ⟨t, -, ht⟩ := Checked.andThen_eq_ok_iff.1 h
  by_cases hempty : t.isEmpty = true
  · rw [if_pos hempty] at ht
    exact nomatch ht
  · rw [if_neg hempty] at ht
    obtain rfl := Checked.ok.inj ht
    exact fun heq => hempty (String.isEmpty_iff.2 heq)

/-- A share that is read is above zero. -/
theorem pos_of_share {q : Rat} {j : Json} (h : share j = .ok q) : 0 < q := by
  obtain ⟨d, -, hd⟩ := Checked.andThen_eq_ok_iff.1 h
  split at hd
  · exact nomatch hd
  · cases d with
    | finite v =>
        dsimp only at hd
        by_cases hpos : 0 < v
        · rw [if_pos hpos] at hd
          exact Checked.ok.inj hd ▸ hpos
        · rw [if_neg hpos] at hd
          exact nomatch hd
    | infinite negative => exact nomatch hd
    | notANumber => exact nomatch hd

/-- A share that is read is not above one. -/
theorem le_one_of_share {q : Rat} {j : Json} (h : share j = .ok q) : q ≤ 1 := by
  obtain ⟨d, -, hd⟩ := Checked.andThen_eq_ok_iff.1 h
  by_cases hmost : d.atMost 1 = true
  · rw [hmost] at hd
    cases d with
    | finite v =>
        dsimp only at hd
        split at hd
        · exact nomatch hd
        · split at hd
          · exact Checked.ok.inj hd ▸ of_decide_eq_true hmost
          · exact nomatch hd
    | infinite negative => exact nomatch hd
    | notANumber => exact nomatch hd
  · rw [Bool.not_eq_true] at hmost
    rw [hmost] at hd
    exact nomatch hd

/-- What holds of the default of a field and of all that can be read holds of its value. -/
theorem of_withDefault {P : α → Prop} {name : String} {read : Read α} {value a : α} {j : Json}
    (h : withDefault name read value j = .ok a) (hvalue : P value)
    (hread : ∀ k a, read k = .ok a → P a) : P a := by
  rw [withDefault] at h
  cases hmember : j.member? name with
  | none =>
      rw [hmember] at h
      exact Checked.ok.inj h ▸ hvalue
  | some k =>
      rw [hmember] at h
      exact hread k a (Checked.under_eq_ok_iff.1 h)

/-- What holds of all that can be read holds of a field that must be there. -/
theorem of_required {P : α → Prop} {name : String} {read : Read α} {a : α} {j : Json}
    (h : required name read j = .ok a) (hread : ∀ k a, read k = .ok a → P a) : P a := by
  rw [required] at h
  cases hmember : j.member? name with
  | none =>
      rw [hmember] at h
      exact nomatch h
  | some k =>
      rw [hmember] at h
      exact hread k a (Checked.under_eq_ok_iff.1 h)

/-- A record has fields that can be read. -/
theorem exists_of_record {fields : Json → Checked α} {j : Json} {a : α}
    (h : record fields j = .ok a) : ∃ k, fields k = .ok a := by
  cases j with
  | object members => exact ⟨_, h⟩
  | _ => exact nomatch h

end PatchReview.Record
