import Distort.Lib.Pool

/-!
What a program has asked and been told so far, as the state under which it is judged.

With the history as the state, the rules for one program (`Terms.Safe`) prove facts about its traces:
what holds of everything that came before a call (`Safe.before`).  The answers are open, up to a
condition that may look at the history.
-/

namespace Distort.Lib

open Prog

variable {C : Type} {R : C → Type} {α : Type}

/-- Every answer is one that the condition admits, given what came before. -/
def Meets (meets : List (Event C R) → Event C R → Prop) : List (Event C R) → List (Event C R) → Prop
  | _, [] => True
  | before, e :: es => meets before e ∧ Meets meets (before ++ [e]) es

instance Meets.decidable (meets : List (Event C R) → Event C R → Prop) [∀ before e, Decidable (meets before e)] :
    (before es : List (Event C R)) → Decidable (Meets meets before es)
  | _, [] => .isTrue trivial
  | before, e :: es =>
    have := decidable meets (before ++ [e]) es
    inferInstanceAs (Decidable (meets before e ∧ Meets meets (before ++ [e]) es))

/-- A program on its own, with its history as the state. -/
def Terms.history (meets : List (Event C R) → Event C R → Prop) (req : C → List (Event C R) → Prop) :
    Terms C R (List (Event C R)) where
  sem c before r after := meets before ⟨c, r⟩ ∧ after = before ++ [⟨c, r⟩]
  Inv _ := True
  Rely := Eq
  Guar _ _ := True
  Req := req
  rely_refl _ := rfl
  rely_trans := Eq.trans

variable {meets : List (Event C R) → Event C R → Prop} {req : C → List (Event C R) → Prop}

/-- **What a call requires holds of everything before it.** -/
theorem Terms.Safe.before {Post : α → List (Event C R) → Prop} {p : Prog C R α} {h es : List (Event C R)}
    (hs : (Terms.history meets req).Safe Post p h) (ht : Trace p es) (hm : Meets meets h es)
    {l l' : List (Event C R)} {c : C} {r : R c} (heq : es = l ++ ⟨c, r⟩ :: l') : req c (h ++ l) := by
  induction ht generalizing h l with
  | stop p => simp at heq
  | @step c' k r' es' _ ih =>
    obtain ⟨hreq, hstep⟩ := hs h rfl trivial
    cases l with
    | nil =>
      cases heq
      rw [List.append_nil]
      exact hreq
    | cons e l =>
      obtain ⟨rfl, htail⟩ := List.cons.inj heq
      have hrest := ih (hstep r' _ ⟨hm.1, rfl⟩).2.2 hm.2 htail
      rw [List.append_assoc] at hrest
      exact hrest

end Distort.Lib
