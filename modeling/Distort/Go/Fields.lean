import Mathlib.Data.List.ReduceOption
import Distort.Go.Basic

/-!
`strings.Fields`: the words of a text between white space.

White space is a matter of runes.  A rune that is white space is found by its bytes alone (`spaceRunes`): each encoding
starts with a byte that goes on no other rune and goes on with bytes that start none.

* `marks` — a text with each rune of white space taken together;
* `fields_append` — the words around white space;
* `fields_word` — a text without white space is one word;
* `exists_space` — the first white space of a text that has some.
-/

namespace Distort.Go

/-! ### White space -/

/-- The encodings of the runes for which `unicode.IsSpace` holds. -/
def spaceRunes : List Str :=
  [[9], [10], [11], [12], [13], [32], [0xC2, 0x85], [0xC2, 0xA0], [0xE1, 0x9A, 0x80],
   [0xE2, 0x80, 0x80], [0xE2, 0x80, 0x81], [0xE2, 0x80, 0x82], [0xE2, 0x80, 0x83], [0xE2, 0x80, 0x84],
   [0xE2, 0x80, 0x85], [0xE2, 0x80, 0x86], [0xE2, 0x80, 0x87], [0xE2, 0x80, 0x88], [0xE2, 0x80, 0x89],
   [0xE2, 0x80, 0x8A], [0xE2, 0x80, 0xA8], [0xE2, 0x80, 0xA9], [0xE2, 0x80, 0xAF], [0xE2, 0x81, 0x9F],
   [0xE3, 0x80, 0x80]]

/-- A byte that goes on a rune. -/
def continues (b : UInt8) : Bool := 0x80 ≤ b && b ≤ 0xBF

/-- The white space at the front of a text. -/
def spaceAt (s : Str) : Option Str := spaceRunes.find? fun r => r.isPrefixOf s

/-- The bytes of a text, and `none` for each rune of white space; the first `skip` bytes belong to one already. -/
def marksFrom : ℕ → Str → List (Option UInt8)
  | _, [] => []
  | skip + 1, _ :: s => marksFrom skip s
  | 0, b :: s =>
    match spaceAt (b :: s) with
    | none => some b :: marksFrom 0 s
    | some r => none :: marksFrom (r.length - 1) s

def marks (s : Str) : List (Option UInt8) := marksFrom 0 s

/-- `strings.Fields`. -/
def fields (s : Str) : List Str := (((marks s).splitOn none).map List.reduceOption).filter (· ≠ [])

/-- Tables by which `strings.TrimSpace` takes away nothing but white space. -/
class StdLib.Trims [StdLib] : Prop where
  trim (s : Str) : ∃ front back : List Str, (∀ r ∈ front, r ∈ spaceRunes) ∧ (∀ r ∈ back, r ∈ spaceRunes) ∧
    s = front.flatten ++ (StdLib.trimSpace s ++ back.flatten)

theorem flatten_singletons (s : Str) : (s.map fun b => [b]).flatten = s := by
  rw [← List.flatMap_def, List.flatMap_singleton']

instance : @StdLib.Trims asciiLib := by
  refine @StdLib.Trims.mk asciiLib fun s => ?_
  have hbyte : ∀ n < 256, asciiLib.blank (UInt8.ofNat n) = true → [UInt8.ofNat n] ∈ spaceRunes := by
    decide +kernel
  have hblank : ∀ l : Str, l.all asciiLib.blank = true → ∀ r ∈ l.map (fun b => [b]), r ∈ spaceRunes := by
    intro l hl r hr
    obtain ⟨b, hb, rfl⟩ := List.mem_map.1 hr
    have h := hbyte b.toNat b.toNat_lt
    rw [UInt8.ofNat_toNat] at h
    exact h (List.all_eq_true.1 hl b hb)
  refine ⟨(s.takeWhile asciiLib.blank).map fun b => [b],
    ((s.dropWhile asciiLib.blank).reverse.takeWhile asciiLib.blank).reverse.map fun b => [b], hblank _ ?_, hblank _ ?_, ?_⟩
  · exact List.all_takeWhile
  · rw [List.all_reverse]
    exact List.all_takeWhile
  · rw [flatten_singletons, flatten_singletons]
    change s = s.takeWhile asciiLib.blank ++ (((s.dropWhile asciiLib.blank).reverse.dropWhile asciiLib.blank).reverse ++
      ((s.dropWhile asciiLib.blank).reverse.takeWhile asciiLib.blank).reverse)
    rw [← List.reverse_append, List.takeWhile_append_dropWhile, List.reverse_reverse, List.takeWhile_append_dropWhile]

/-! ### Marks -/

theorem spaceRune_ne_nil : ∀ r ∈ spaceRunes, r ≠ [] := by decide

theorem spaceRune_head : ∀ r ∈ spaceRunes, r.head?.any continues = false := by decide

theorem spaceRune_tail : ∀ r ∈ spaceRunes, r.tail.all continues = true := by decide

theorem spaceRune_free : ∀ r ∈ spaceRunes, ∀ r' ∈ spaceRunes, r.isPrefixOf r' = true → r = r' := by decide

theorem spaceRune_unique {r r' s : Str} (hr : r ∈ spaceRunes) (hr' : r' ∈ spaceRunes) (h : r <+: s) (h' : r' <+: s) :
    r = r' := by
  rcases List.prefix_or_prefix_of_prefix h h' with hp | hp
  · exact spaceRune_free r hr r' hr' (List.isPrefixOf_iff_prefix.2 hp)
  · exact (spaceRune_free r' hr' r hr (List.isPrefixOf_iff_prefix.2 hp)).symm

theorem eq_of_spaceAt {r s : Str} (h : spaceAt s = some r) : r ∈ spaceRunes ∧ r <+: s :=
  ⟨List.mem_of_find?_eq_some h, List.isPrefixOf_iff_prefix.1 (List.find?_some (p := fun r : Str => r.isPrefixOf s) h)⟩

theorem spaceAt_append {r : Str} (hr : r ∈ spaceRunes) (s : Str) : spaceAt (r ++ s) = some r := by
  have hsome : (spaceAt (r ++ s)).isSome = true :=
    List.find?_isSome.2 ⟨r, hr, List.isPrefixOf_iff_prefix.2 (List.prefix_append r s)⟩
  obtain ⟨r', hr'⟩ := Option.isSome_iff_exists.1 hsome
  obtain ⟨hmem, hprefix⟩ := eq_of_spaceAt hr'
  rw [hr', spaceRune_unique hmem hr hprefix (List.prefix_append r s)]

theorem marksFrom_append (x s : Str) : marksFrom x.length (x ++ s) = marks s := by
  induction x with
  | nil => rfl
  | cons b x ih => exact ih

@[simp] theorem marks_nil : marks [] = [] := rfl

theorem marks_space {r : Str} (hr : r ∈ spaceRunes) (s : Str) : marks (r ++ s) = none :: marks s := by
  obtain ⟨b, x, rfl⟩ := List.exists_cons_of_ne_nil (spaceRune_ne_nil r hr)
  have hspace := spaceAt_append hr s
  rw [List.cons_append] at hspace ⊢
  rw [marks, marksFrom, hspace]
  simp only [List.length_cons, Nat.add_sub_cancel]
  rw [marksFrom_append]

variable {s : Str}

theorem marks_byte {b : UInt8} (h : spaceAt (b :: s) = none) : marks (b :: s) = some b :: marks s := by
  rw [marks, marksFrom, h]
  rfl

theorem spaceAt_append_of_none {x y : Str} (hx : x ≠ []) (hy : y.head?.any continues = false) (h : spaceAt x = none) :
    spaceAt (x ++ y) = none := by
  rw [spaceAt, List.find?_eq_none] at h ⊢
  intro r hr hprefix
  have hp := List.isPrefixOf_iff_prefix.1 hprefix
  rcases List.prefix_or_prefix_of_prefix hp (List.prefix_append x y) with hrx | ⟨t, rfl⟩
  · exact h r hr (List.isPrefixOf_iff_prefix.2 hrx)
  cases t with
  | nil => exact h _ hr (by simp)
  | cons c t =>
    obtain ⟨b, x, rfl⟩ := List.exists_cons_of_ne_nil hx
    -- the rune would go on with the first byte of `y`
    have hc : continues c = true := List.all_eq_true.1 (spaceRune_tail _ hr) c (by simp)
    obtain ⟨y', rfl⟩ := (List.prefix_append_right_inj _).1 hp
    simp [hc] at hy

theorem spaceAt_of_append {x y : Str} (h : spaceAt (x ++ y) = none) : spaceAt x = none := by
  rw [spaceAt, List.find?_eq_none] at h ⊢
  intro r hr hx
  have hxy := (List.isPrefixOf_iff_prefix.1 hx).trans (List.prefix_append x y)
  exact h r hr (List.isPrefixOf_iff_prefix.2 hxy)

/-- **A text in two parts**, of which the second starts with a rune. -/
theorem marks_append {x y : Str} (hy : y.head?.any continues = false) : marks (x ++ y) = marks x ++ marks y := by
  induction hlen : x.length using Nat.strong_induction_on generalizing x with
  | h len ih =>
    cases x with
    | nil => rfl
    | cons b x =>
      cases hspace : spaceAt (b :: x) with
      | none =>
        have hnone : spaceAt (b :: (x ++ y)) = none := spaceAt_append_of_none (List.cons_ne_nil b x) hy hspace
        rw [List.cons_append, marks_byte hnone, marks_byte hspace, ih x.length (by rw [← hlen]; simp) rfl]
        rfl
      | some r =>
        obtain ⟨hr, t, ht⟩ := eq_of_spaceAt hspace
        have hpos := List.length_pos_of_ne_nil (spaceRune_ne_nil r hr)
        have hshort : t.length < len := by
          rw [← hlen, ← ht, List.length_append]
          omega
        rw [← ht, List.append_assoc, marks_space hr, marks_space hr, ih t.length hshort rfl]
        rfl

/-! ### Words -/

/-- A text without white space. -/
def Solid (s : Str) : Prop := none ∉ marks s

instance (s : Str) : Decidable (Solid s) := inferInstanceAs (Decidable (¬ _))

theorem solid_append {x y : Str} (hy : y.head?.any continues = false) : Solid (x ++ y) ↔ Solid x ∧ Solid y := by
  rw [Solid, marks_append hy, List.mem_append, not_or]
  rfl

/-- **Words around white space.** -/
theorem fields_append {r : Str} (hr : r ∈ spaceRunes) (x y : Str) : fields (x ++ (r ++ y)) = fields x ++ fields y := by
  have hhead : (r ++ y).head?.any continues = false := by
    obtain ⟨b, t, rfl⟩ := List.exists_cons_of_ne_nil (spaceRune_ne_nil r hr)
    exact spaceRune_head (b :: t) hr
  rw [fields, marks_append hhead, marks_space hr, List.splitOn, List.splitOnP_append_cons _ _ rfl, List.map_append,
    List.filter_append]
  rfl

@[simp] theorem fields_nil : fields [] = [] := rfl

theorem marks_of_solid (h : Solid s) : marks s = s.map some := by
  induction s with
  | nil => rfl
  | cons b s ih =>
    cases hspace : spaceAt (b :: s) with
    | none =>
      rw [Solid, marks_byte hspace, List.mem_cons, not_or] at h
      rw [marks_byte hspace, ih h.2, List.map_cons]
    | some r =>
      obtain ⟨hr, t, ht⟩ := eq_of_spaceAt hspace
      rw [Solid, ← ht, marks_space hr] at h
      exact absurd (List.mem_cons_self ..) h

theorem fields_word (hs : s ≠ []) (h : Solid s) : fields s = [s] := by
  have hsplit : (marks s).splitOn none = [marks s] := by
    have hone : ([none].intercalate [marks s]).splitOn none = [marks s] :=
      List.splitOn_intercalate none (by simpa [Solid] using h) (by simp)
    simpa using hone
  rw [fields, hsplit, marks_of_solid h]
  simp [List.reduceOption, List.filterMap_map, hs]

theorem spaceAt_eq_none {b : UInt8} (h : ∀ r ∈ spaceRunes, r.head? ≠ some b) (s : Str) : spaceAt (b :: s) = none := by
  rw [spaceAt, List.find?_eq_none]
  intro r hr hprefix
  obtain ⟨t, ht⟩ := List.isPrefixOf_iff_prefix.1 hprefix
  obtain ⟨c, x, rfl⟩ := List.exists_cons_of_ne_nil (spaceRune_ne_nil r hr)
  obtain ⟨rfl, -⟩ := List.cons.inj ht
  exact h _ hr rfl

theorem solid_of_bytes (h : ∀ b ∈ s, ∀ r ∈ spaceRunes, r.head? ≠ some b) : Solid s := by
  induction s with
  | nil => simp [Solid]
  | cons b s ih =>
    rw [Solid, marks_byte (spaceAt_eq_none (h b (List.mem_cons_self ..)) s), List.mem_cons, not_or]
    exact ⟨nofun, ih fun c hc => h c (List.mem_cons_of_mem _ hc)⟩

theorem exists_space (h : ¬ Solid s) : ∃ x r y, r ∈ spaceRunes ∧ s = x ++ (r ++ y) ∧ Solid x := by
  rw [Solid, not_not] at h
  induction s with
  | nil => cases h
  | cons b s ih =>
    cases hspace : spaceAt (b :: s) with
    | some r =>
      obtain ⟨hr, t, ht⟩ := eq_of_spaceAt hspace
      exact ⟨[], r, t, hr, ht.symm, by simp [Solid]⟩
    | none =>
      rw [marks_byte hspace, List.mem_cons] at h
      obtain ⟨x, r, y, hr, rfl, hx⟩ := ih (h.resolve_left nofun)
      refine ⟨b :: x, r, y, hr, rfl, ?_⟩
      rw [Solid, marks_byte (spaceAt_of_append (y := r ++ y) hspace), List.mem_cons, not_or]
      exact ⟨nofun, hx⟩

theorem solid_of_mem_fields {s w : Str} (h : w ∈ fields s) : Solid w := by
  induction hlen : s.length using Nat.strong_induction_on generalizing s with
  | h len ih =>
    by_cases hs : Solid s
    · by_cases hne : s = []
      · rw [hne, fields_nil] at h
        cases h
      rw [fields_word hne hs, List.mem_singleton] at h
      rw [h]
      exact hs
    · obtain ⟨x, r, y, hr, rfl, -⟩ := exists_space hs
      have hpos := List.length_pos_of_ne_nil (spaceRune_ne_nil r hr)
      simp only [List.length_append] at hlen
      rw [fields_append hr, List.mem_append] at h
      rcases h with h | h
      · exact ih x.length (by omega) h rfl
      · exact ih y.length (by omega) h rfl

end Distort.Go
