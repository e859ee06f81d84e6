import Mathlib.Data.Set.Function
import Mathlib.Logic.Function.Basic

/-! # Patches over a memory

A table of patches hides parts of a memory: a patch's cells show its values and
every other cell shows what lies underneath. Patches that do not overlap come
and go in any order, and once the table is empty the memory underneath is back.
-/

namespace Patching

variable {ι α β : Type}

/-- Cells and the values to show there. -/
structure Patch (α β : Type) where
  cells : Set α
  value : α → β

/-- `after` is `before` with a patch's cells replaced. -/
structure Patch.Sets (patch : Patch α β) (before after : α → β) : Prop where
  inside : ∀ a ∈ patch.cells, after a = patch.value a
  outside : ∀ a, a ∉ patch.cells → after a = before a

/-- `memory` is `underlying` seen through the table's patches. -/
structure Shows (underlying memory : α → β) (table : ι → Option (Patch α β)) : Prop where
  covered : ∀ i patch, table i = some patch → ∀ a ∈ patch.cells, memory a = patch.value a
  uncovered : ∀ a, (∀ i patch, table i = some patch → a ∉ patch.cells) → memory a = underlying a

/-- A patch has none of the cells. -/
def Patch.Avoids (patch : Patch α β) (cells : Set α) : Prop := ∀ a ∈ patch.cells, a ∉ cells

/-- No patch but `i` has any of the cells. -/
def Clear (table : ι → Option (Patch α β)) (i : ι) (cells : Set α) : Prop :=
  ∀ j patch, j ≠ i → table j = some patch → patch.Avoids cells

/-- The patches of a table do not overlap. -/
def Apart (table : ι → Option (Patch α β)) : Prop :=
  ∀ i patch, table i = some patch → Clear table i patch.cells

namespace Shows

variable {underlying memory after : α → β} {table : ι → Option (Patch α β)}

theorem of_empty (h : Shows underlying memory table) (hempty : ∀ i, table i = none) :
    memory = underlying := by
  funext a
  refine h.uncovered a fun i patch hpatch => ?_
  rw [hempty i] at hpatch
  cases hpatch

theorem start (memory : α → β) (table : ι → Option (Patch α β)) (hempty : ∀ i, table i = none) :
    Shows memory memory table := by
  refine ⟨fun i patch hpatch => ?_, fun _ _ => rfl⟩
  rw [hempty i] at hpatch
  cases hpatch

/-- Where no patch is, the memory underneath shows. -/
theorem of_clear (h : Shows underlying memory table) {cells : Set α}
    (hclear : ∀ i patch, table i = some patch → patch.Avoids cells) :
    Set.EqOn memory underlying cells := by
  intro a ha
  refine h.uncovered a fun i patch hpatch hin => ?_
  exact hclear i patch hpatch a hin ha

variable [DecidableEq ι]

/-- A patch put where no other is. -/
theorem insert (h : Shows underlying memory table) {i : ι} {patch : Patch α β}
    (hfree : table i = none) (hclear : Clear table i patch.cells)
    (hsets : patch.Sets memory after) :
    Shows underlying after (Function.update table i (some patch)) := by
  constructor
  · intro j other hother a ha
    by_cases hsame : j = i
    · subst hsame
      rw [Function.update_self] at hother
      cases hother
      exact hsets.inside a ha
    · rw [Function.update_of_ne hsame] at hother
      have hout : a ∉ patch.cells := fun hin =>
        hclear j other hsame hother a ha hin
      rw [hsets.outside a hout]
      exact h.covered j other hother a ha
  · intro a hall
    have hout : a ∉ patch.cells := hall i patch (Function.update_self ..)
    rw [hsets.outside a hout]
    refine h.uncovered a fun j other hother => ?_
    have hne : j ≠ i := by
      rintro rfl
      rw [hfree] at hother
      cases hother
    exact hall j other (by rw [Function.update_of_ne hne]; exact hother)

/-- A patch taken away by putting back what lies under it. -/
theorem remove (h : Shows underlying memory table) {i : ι} {patch : Patch α β}
    (hpatch : table i = some patch) (hclear : Clear table i patch.cells)
    (hsets : (Patch.mk patch.cells underlying).Sets memory after) :
    Shows underlying after (Function.update table i none) := by
  constructor
  · intro j other hother a ha
    have hne : j ≠ i := by
      rintro rfl
      rw [Function.update_self] at hother
      cases hother
    rw [Function.update_of_ne hne] at hother
    have hout : a ∉ patch.cells := fun hin =>
      hclear j other hne hother a ha hin
    rw [hsets.outside a hout]
    exact h.covered j other hother a ha
  · intro a hall
    by_cases hin : a ∈ patch.cells
    · exact hsets.inside a hin
    · rw [hsets.outside a hin]
      refine h.uncovered a fun j other hother => ?_
      by_cases hsame : j = i
      · subst hsame
        rw [hpatch] at hother
        cases hother
        exact hin
      · exact hall j other (by rw [Function.update_of_ne hsame]; exact hother)

end Shows

/-- A write to cells that no patch has reaches the memory underneath. -/
theorem Shows.write {underlying underlying' memory after : α → β}
    {table : ι → Option (Patch α β)} (h : Shows underlying memory table) {written : Patch α β}
    (hclear : ∀ i patch, table i = some patch → patch.Avoids written.cells)
    (hsets : written.Sets memory after) (hsets' : written.Sets underlying underlying') :
    Shows underlying' after table := by
  constructor
  · intro i patch hpatch a ha
    have hout : a ∉ written.cells := fun hin =>
      hclear i patch hpatch a ha hin
    rw [hsets.outside a hout]
    exact h.covered i patch hpatch a ha
  · intro a hall
    by_cases hin : a ∈ written.cells
    · rw [hsets.inside a hin, hsets'.inside a hin]
    · rw [hsets.outside a hin, hsets'.outside a hin]
      exact h.uncovered a hall

section Apart

variable [DecidableEq ι] {table : ι → Option (Patch α β)} {i : ι} {patch : Patch α β}

theorem Apart.insert (h : Apart table) (hclear : Clear table i patch.cells) :
    Apart (Function.update table i (some patch)) := by
  intro j first hfirst k second hne hsecond
  by_cases hj : j = i
  · subst hj
    rw [Function.update_self] at hfirst
    cases hfirst
    rw [Function.update_of_ne hne] at hsecond
    exact hclear k second hne hsecond
  · rw [Function.update_of_ne hj] at hfirst
    by_cases hk : k = i
    · subst hk
      rw [Function.update_self] at hsecond
      cases hsecond
      exact fun a hin ha => hclear j first hj hfirst a ha hin
    · rw [Function.update_of_ne hk] at hsecond
      exact h j first hfirst k second hne hsecond

theorem Apart.remove (h : Apart table) : Apart (Function.update table i none) := by
  have hkept {j : ι} {other : Patch α β} (hother : Function.update table i none j = some other) :
      table j = some other := by
    by_cases hj : j = i
    · subst hj
      rw [Function.update_self] at hother
      cases hother
    · rwa [Function.update_of_ne hj] at hother
  intro j first hfirst k second hne hsecond
  exact h j first (hkept hfirst) k second hne (hkept hsecond)

end Apart

end Patching
