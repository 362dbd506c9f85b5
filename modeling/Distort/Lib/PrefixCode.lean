import Mathlib.Data.List.Basic

/-!
Codes whose words can be read off the front of a stream.

* `PrefixCode D e` — two streams that start with words for inputs in `D` and are equal start with the
  same word, and go on equally;
* `PrefixCode.of_read`, `PrefixCode.of_length`, `PrefixCode.lengthPrefixed`, `PrefixCode.terminated`,
  `PrefixCode.upTo` — ways to make one;
* `PrefixCode.flatMap_inj` — a sequence of words is read back.
-/

namespace Distort.Lib

/-- On the inputs in `D`, a word of `e` shows by itself where it ends. -/
structure PrefixCode {α β : Type*} (D : α → Prop) (e : α → List β) : Prop where
  split : ∀ {a b : α}, D a → D b → ∀ {x y : List β}, e a ++ x = e b ++ y → a = b ∧ x = y

namespace PrefixCode

variable {α β : Type*} {D : α → Prop} {e : α → List β}

/-- Words that a reader takes off. -/
theorem of_read (read : List β → Option (α × List β))
    (h : ∀ a, D a → ∀ x, read (e a ++ x) = some (a, x)) : PrefixCode D e := by
  refine ⟨fun {a b} ha hb {x y} heq => ?_⟩
  have hread := h a ha x
  rw [heq, h b hb y] at hread
  cases hread
  exact ⟨rfl, rfl⟩

/-- Words of one length that differ for different inputs. -/
theorem of_length {n : ℕ} (hlen : ∀ a, D a → (e a).length = n) (hinj : ∀ a b, D a → D b → e a = e b → a = b) :
    PrefixCode D e := by
  refine ⟨fun {a b} ha hb {x y} h => ?_⟩
  have hsame : (e a).length = (e b).length := by rw [hlen a ha, hlen b hb]
  obtain ⟨hword, hrest⟩ := List.append_inj h hsame
  exact ⟨hinj a b ha hb hword, hrest⟩

/-- A list after a word for its length. -/
theorem lengthPrefixed {D : ℕ → Prop} {e : ℕ → List β} (h : PrefixCode D e) :
    PrefixCode (fun l : List β => D l.length) fun l => e l.length ++ l := by
  refine ⟨fun {l m} hl hm {x y} heq => ?_⟩
  simp only [List.append_assoc] at heq
  obtain ⟨hlen, hrest⟩ := h.split hl hm heq
  exact List.append_inj hrest hlen

/-- A sequence of words that are not empty. -/
theorem flatMap_inj (h : PrefixCode D e) (hne : ∀ a, D a → e a ≠ []) {l m : List α} (hl : ∀ a ∈ l, D a)
    (hm : ∀ a ∈ m, D a) (heq : l.flatMap e = m.flatMap e) : l = m := by
  induction l generalizing m with
  | nil =>
    cases m with
    | nil => rfl
    | cons b m =>
      have hb := hne b (hm b (List.mem_cons_self ..))
      simp [List.flatMap_cons, hb] at heq
  | cons a l ih =>
    cases m with
    | nil =>
      have ha := hne a (hl a (List.mem_cons_self ..))
      simp [List.flatMap_cons, ha] at heq
    | cons b m =>
      simp only [List.flatMap_cons] at heq
      obtain ⟨rfl, hrest⟩ := h.split (hl a (List.mem_cons_self ..)) (hm b (List.mem_cons_self ..)) heq
      rw [ih (fun a ha => hl a (List.mem_cons_of_mem _ ha)) (fun a ha => hm a (List.mem_cons_of_mem _ ha)) hrest]

/-- A sequence of words up to a mark that no word starts with. -/
theorem terminated (h : PrefixCode D e) {mark : β} (hmark : ∀ a, D a → ∃ c w, e a = c :: w ∧ c ≠ mark) :
    PrefixCode (fun l : List α => ∀ a ∈ l, D a) fun l => l.flatMap e ++ [mark] := by
  constructor
  intro l
  induction l with
  | nil =>
    intro m _ hm x y heq
    cases m with
    | nil => exact ⟨rfl, by simpa using heq⟩
    | cons b m =>
      obtain ⟨c, w, hw, hc⟩ := hmark b (hm b (List.mem_cons_self ..))
      simp only [List.flatMap_nil, List.nil_append, List.flatMap_cons, hw, List.cons_append, List.cons.injEq] at heq
      exact absurd heq.1.symm hc
  | cons a l ih =>
    intro m hl hm x y heq
    cases m with
    | nil =>
      obtain ⟨c, w, hw, hc⟩ := hmark a (hl a (List.mem_cons_self ..))
      simp only [List.flatMap_nil, List.nil_append, List.flatMap_cons, hw, List.cons_append, List.cons.injEq] at heq
      exact absurd heq.1 hc
    | cons b m =>
      simp only [List.flatMap_cons, List.append_assoc] at heq
      obtain ⟨rfl, hrest⟩ := h.split (hl a (List.mem_cons_self ..)) (hm b (List.mem_cons_self ..)) heq
      simp only [← List.append_assoc] at hrest
      obtain ⟨rfl, hxy⟩ := ih (fun a ha => hl a (List.mem_cons_of_mem _ ha))
        (fun a ha => hm a (List.mem_cons_of_mem _ ha)) hrest
      exact ⟨rfl, hxy⟩

/-- A list up to a mark that it does not contain. -/
theorem upTo (mark : β) : PrefixCode (fun l : List β => mark ∉ l) fun l => l ++ [mark] := by
  have hsymbol : PrefixCode (fun c : β => c ≠ mark) fun c => [c] := by
    refine ⟨fun {a b} _ _ {x y} h => ?_⟩
    simpa using h
  have hflat : ∀ l : List β, l.flatMap (fun c => [c]) = l := List.flatMap_singleton'
  refine ⟨fun {l m} hl hm {x y} h => ?_⟩
  refine (hsymbol.terminated fun c hc => ⟨c, [], rfl, hc⟩).split ?_ ?_ (by rw [hflat, hflat]; exact h)
  · rintro c hc rfl
    exact hl hc
  · rintro c hc rfl
    exact hm hc

end PrefixCode

end Distort.Lib
