import Mathlib.Computability.RegularExpressions

/-!
Patterns with sets of symbols.

* `anyOf l` — one of the symbols of `l`, as `[...]` in a pattern;
* `mem_star_anyOf` — what `[...]*` matches.
-/

namespace Distort.Lib

open RegularExpression

variable {α : Type} {l w : List α}

/-- One of these symbols. -/
def anyOf : List α → RegularExpression α
  | [] => 0
  | a :: l => char a + anyOf l

theorem mem_anyOf : w ∈ (anyOf l).matches' ↔ ∃ a ∈ l, w = [a] := by
  induction l with
  | nil => exact ⟨fun h => absurd h (Language.notMem_zero w), fun ⟨a, ha, _⟩ => nomatch ha⟩
  | cons b l ih =>
    rw [anyOf, matches'_add, Language.mem_add, ih, matches'_char]
    simp only [List.mem_cons, exists_eq_or_imp]
    exact Iff.rfl

theorem mem_star_anyOf : w ∈ (anyOf l).star.matches' ↔ ∀ a ∈ w, a ∈ l := by
  rw [matches'_star, Language.mem_kstar]
  constructor
  · rintro ⟨L, rfl, hL⟩ a ha
    obtain ⟨w, hw, ha⟩ := List.mem_flatten.1 ha
    obtain ⟨b, hb, rfl⟩ := mem_anyOf.1 (hL w hw)
    rwa [List.mem_singleton.1 ha]
  · intro h
    refine ⟨w.map fun a => [a], ?_, fun y hy => ?_⟩
    · rw [← List.flatMap_def, List.flatMap_singleton']
    · obtain ⟨a, ha, rfl⟩ := List.mem_map.1 hy
      exact mem_anyOf.2 ⟨a, h a ha, rfl⟩

end Distort.Lib
