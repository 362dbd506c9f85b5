import Mathlib.Data.List.DropRight
import Distort.Go.Basic

/-!
What is used of the tables of the standard library beyond that they exist.

* `StdLib.Lawful` — `strings.TrimSpace` takes away the ASCII blanks around a text whose ends are graphic;
* the ASCII tables are lawful.
-/

namespace Distort.Go

/-! ### Bytes -/

/-- An ASCII character that is white space. -/
def blank (c : UInt8) : Bool := c = 32 ∨ 9 ≤ c ∧ c ≤ 13

/-- An ASCII character that can be seen. -/
def graphic (c : UInt8) : Bool := 33 ≤ c ∧ c ≤ 126

theorem not_blank_of_graphic {c : UInt8} (h : graphic c = true) : blank c = false := by
  simp only [graphic, decide_eq_true_eq, blank, decide_eq_false_iff_not, UInt8.le_iff_toNat_le,
    ← UInt8.toNat_inj] at h ⊢
  change 33 ≤ c.toNat ∧ c.toNat ≤ 126 at h
  change ¬(c.toNat = 32 ∨ 9 ≤ c.toNat ∧ c.toNat ≤ 13)
  omega

/-- A text that starts and ends with something to see, or is empty. -/
def framed (s : Str) : Bool := s.head?.all graphic && s.getLast?.all graphic

/-- Tables that treat ASCII blanks as white space, and nothing that can be seen. -/
class StdLib.Lawful [StdLib] : Prop where
  trimSpace_pad {l s r : Str} : l.all blank = true → r.all blank = true → framed s = true →
    StdLib.trimSpace (l ++ s ++ r) = s

/-- Tables that, besides, leave lower-case ASCII texts as they are and make no text empty by lower-casing it. -/
class StdLib.LawfulCase [StdLib] : Prop extends StdLib.Lawful where
  toLower_ne_nil {s : Str} : s ≠ [] → StdLib.toLower s ≠ []
  toLower_lower {s : Str} : s.all (fun c => graphic c && !(65 ≤ c && c ≤ 90)) = true → StdLib.toLower s = s

section trim

variable [StdLib] [StdLib.Lawful]

theorem trimSpace_append {s r : Str} (hs : framed s = true) (hr : r.all blank = true) : trimSpace (s ++ r) = s :=
  StdLib.Lawful.trimSpace_pad (l := []) rfl hr hs

theorem trimSpace_framed {s : Str} (hs : framed s = true) : trimSpace s = s := by
  simpa using trimSpace_append hs (r := []) rfl

end trim

/-! ### The ASCII tables -/

theorem dropWhile_blank {l s : Str} (hl : l.all blank = true) (hs : s.head?.all graphic = true) :
    (l ++ s).dropWhile blank = s := by
  induction l with
  | nil =>
    cases s with
    | nil => rfl
    | cons c s => exact List.dropWhile_cons_of_neg (by simpa using not_blank_of_graphic hs)
  | cons c l ih =>
    simp only [List.all_cons, Bool.and_eq_true] at hl
    rw [List.cons_append, List.dropWhile_cons_of_pos hl.1]
    exact ih hl.2

instance : @StdLib.Lawful asciiLib := by
  refine @StdLib.Lawful.mk asciiLib fun {l s r} hl hr hs => ?_
  simp only [framed, Bool.and_eq_true] at hs
  change (((l ++ s ++ r).dropWhile blank).reverse.dropWhile blank).reverse = s
  rcases s.eq_nil_or_concat with rfl | ⟨s', c, rfl⟩
  · have hnil : (l ++ [] ++ r).dropWhile blank = [] := by
      rw [List.dropWhile_eq_nil_iff]
      simpa [List.all_eq_true] using fun c hc => hc.elim (List.all_eq_true.1 hl c) (List.all_eq_true.1 hr c)
    rw [hnil]
    rfl
  · rw [List.append_assoc, dropWhile_blank hl]
    · rw [List.reverse_append, dropWhile_blank (by simpa using hr) (by simpa using hs.2), List.reverse_reverse]
    · cases s' <;> simpa using hs.1

instance : @StdLib.LawfulCase asciiLib := by
  refine @StdLib.LawfulCase.mk asciiLib inferInstance (fun {s} hs => ?_) fun {s} hs => ?_
  · change s.map asciiLib.lower ≠ []
    simpa using hs
  · change s.map asciiLib.lower = s
    induction s with
    | nil => rfl
    | cons c s ih =>
      simp only [List.all_cons, Bool.and_eq_true, Bool.not_eq_true', Bool.and_eq_false_imp, decide_eq_true_eq,
        decide_eq_false_iff_not] at hs
      have hc : asciiLib.lower c = c := if_neg fun h => hs.1.2 h.1 h.2
      rw [List.map_cons, hc, ih (by simpa using hs.2)]

/-! ### Parts of strings -/

/-- `strings.TrimSuffix`. -/
def trimSuffix (s p : Str) : Str := if hasSuffix s p then s.take (s.length - p.length) else s

/-- `strings.Contains`. -/
def contains (s part : Str) : Bool := s.tails.any fun t => hasPrefix t part

theorem trimSuffix_append (s p : Str) : trimSuffix (s ++ p) p = s := by
  have hsuffix : hasSuffix (s ++ p) p = true := List.isSuffixOf_iff_suffix.2 (List.suffix_append s p)
  rw [trimSuffix, if_pos hsuffix, List.length_append, Nat.add_sub_cancel, List.take_left]

/-! ### Paths -/

/-- One step of `filepath.Clean` through the elements of a path. -/
def cleanStep (rooted : Bool) (out : List Str) (element : Str) : List Str :=
  if element = [] ∨ element = str "." then out
  else if element = str ".." then
    if out ≠ [] ∧ out.getLast? ≠ some (str "..") then out.dropLast else if rooted then out else out ++ [element]
  else out ++ [element]

/-- `filepath.Clean`. -/
def clean (path : Str) : Str :=
  let rooted := path.head? = some 47
  let out := (path.splitOn 47).foldl (cleanStep rooted) []
  let cleaned := (if rooted then str "/" else []) ++ join out "/"
  if cleaned = [] then "." else cleaned

/-- An element that `filepath.Clean` keeps. -/
def plainElement (element : Str) : Prop :=
  element ≠ [] ∧ (47 : UInt8) ∉ element ∧ element ≠ str "." ∧ element ≠ str ".."

instance (element : Str) : Decidable (plainElement element) := inferInstanceAs (Decidable (_ ∧ _))

/-- An absolute path as it is written after `filepath.Clean`. -/
def Canonical (path : Str) : Prop :=
  ∃ elements : List Str, elements ≠ [] ∧ (∀ e ∈ elements, plainElement e) ∧ path = str "/" ++ join elements "/"

theorem cleanStep_plain {rooted : Bool} {out : List Str} {element : Str} (h : plainElement element) :
    cleanStep rooted out element = out ++ [element] := by
  obtain ⟨hne, -, hdot, hdots⟩ := h
  rw [cleanStep, if_neg (by simp [hne, hdot]), if_neg hdots]

theorem join_cons (a : Str) {l : List Str} (h : l ≠ []) (sep : Str) : join (a :: l) sep = a ++ sep ++ join l sep := by
  obtain ⟨b, l, rfl⟩ := List.exists_cons_of_ne_nil h
  simp [join, List.intercalate]

theorem not_mem_join {c : UInt8} {sep : Str} (hsep : c ∉ sep) {l : List Str} (hl : ∀ f ∈ l, c ∉ f) : c ∉ join l sep := by
  induction l with
  | nil => exact List.not_mem_nil
  | cons a l ih =>
    have ha := hl a List.mem_cons_self
    cases l with
    | nil => simpa [join] using ha
    | cons b l =>
      rw [join_cons a (List.cons_ne_nil _ _)]
      simp only [List.mem_append, not_or]
      exact ⟨⟨ha, hsep⟩, ih fun f hf => hl f (List.mem_cons_of_mem _ hf)⟩

theorem clean_canonical {path : Str} (h : Canonical path) : clean path = path := by
  obtain ⟨elements, hne, hall, rfl⟩ := h
  have hroot : (str "/" ++ join elements "/").head? = some 47 := rfl
  have hsplit : (str "/" ++ join elements "/").splitOn 47 = [] :: elements := by
    have heq : str "/" ++ join elements "/" = [47].intercalate ([] :: elements) := (join_cons [] hne "/").symm
    rw [heq]
    refine List.splitOn_intercalate 47 (fun e he => ?_) (List.cons_ne_nil _ _)
    rcases List.mem_cons.1 he with rfl | he
    · exact List.not_mem_nil
    · exact (hall e he).2.1
  have hfold : ∀ (l out : List Str), (∀ e ∈ l, plainElement e) → l.foldl (cleanStep true) out = out ++ l := by
    intro l
    induction l with
    | nil => exact fun out _ => (List.append_nil out).symm
    | cons e l ih =>
      intro out hl
      rw [List.foldl_cons, cleanStep_plain (hl e List.mem_cons_self), ih _ fun e he => hl e (List.mem_cons_of_mem _ he),
        List.append_assoc]
      rfl
  unfold clean
  simp only [hroot, hsplit, List.foldl_cons, decide_true, if_true]
  have hskip : cleanStep true [] [] = [] := rfl
  rw [hskip, hfold elements [] hall, List.nil_append, if_neg (by simp [str])]

/-- The length of the elements of a path, each with the slash in front of it. -/
def weight (elements : List Str) : ℕ := (elements.map fun e => e.length + 1).sum

@[simp] theorem weight_nil : weight [] = 0 := rfl

@[simp] theorem weight_cons (e : Str) (l : List Str) : weight (e :: l) = e.length + 1 + weight l := rfl

@[simp] theorem weight_append (l m : List Str) : weight (l ++ m) = weight l + weight m := by
  simp [weight]

theorem length_join {l : List Str} (h : l ≠ []) : (join l "/").length + 1 = weight l := by
  induction l with
  | nil => exact absurd rfl h
  | cons e l ih =>
    by_cases hl : l = []
    · subst hl
      simp [join]
    have hrest := ih hl
    have hslash : (str "/").length = 1 := rfl
    rw [join_cons e hl]
    simp only [List.length_append, hslash, weight_cons]
    omega

theorem weight_cleanStep (rooted : Bool) (out : List Str) (e : Str) :
    weight (cleanStep rooted out e) ≤ weight out + (e.length + 1) := by
  unfold cleanStep
  split_ifs
  · omega
  · rcases out.eq_nil_or_concat with rfl | ⟨front, last, rfl⟩
    · simp
    · simp
      omega
  · omega
  · simp
  · simp

theorem weight_foldl_cleanStep (rooted : Bool) (l out : List Str) :
    weight (l.foldl (cleanStep rooted) out) ≤ weight out + weight l := by
  induction l generalizing out with
  | nil => simp
  | cons e l ih =>
    have hfirst := weight_cleanStep rooted out e
    have hrest := ih (cleanStep rooted out e)
    simp only [List.foldl_cons, weight_cons]
    omega

theorem clean_length_le {path : Str} (h : path.head? = some 47) : (clean path).length ≤ path.length := by
  obtain ⟨rest, rfl⟩ : ∃ rest, path = 47 :: rest := by
    cases path with
    | nil => cases h
    | cons b rest => exact ⟨rest, by rw [Option.some.inj h]⟩
  have hsplit : (47 :: rest : Str).splitOn 47 = [] :: rest.splitOn 47 :=
    List.splitOnP_append_cons (p := fun b => b == (47 : UInt8)) [] rest rfl
  have hparts : rest.splitOn 47 ≠ [] := List.splitOn_ne_nil _ _
  have hweight : weight (rest.splitOn 47) = rest.length + 1 := by
    rw [← length_join hparts]
    exact congrArg (fun s : Str => s.length + 1) (List.intercalate_splitOn (47 : UInt8))
  have hfold := weight_foldl_cleanStep true (rest.splitOn 47) []
  unfold clean
  simp only [h, hsplit, List.foldl_cons, decide_true, if_true]
  have hskip : cleanStep true [] [] = [] := rfl
  have hroot : (str "/").length = 1 := rfl
  rw [hskip, if_neg (by simp [str]), List.length_append, hroot, List.length_cons]
  by_cases hout : (rest.splitOn 47).foldl (cleanStep true) [] = []
  · rw [hout]
    simp [join]
  have hjoin := length_join hout
  rw [hweight, weight_nil] at hfold
  omega

theorem Canonical.append {path s : Str} (h : Canonical path) (hslash : (47 : UInt8) ∉ s) {b : UInt8} (hb : b ∈ s)
    (hdot : b ≠ 46) : Canonical (path ++ s) := by
  obtain ⟨elements, hne, hall, rfl⟩ := h
  obtain ⟨front, last, rfl⟩ := (List.eq_nil_or_concat elements).resolve_left hne
  rw [List.concat_eq_append] at hall ⊢
  have hjoin : ∀ l : List Str, join (l ++ [last]) "/" ++ s = join (l ++ [last ++ s]) "/" := by
    intro l
    induction l with
    | nil => simp [join]
    | cons a l ih => rw [List.cons_append, List.cons_append, join_cons a (by simp), join_cons a (by simp), ← ih,
        List.append_assoc]
  refine ⟨front ++ [last ++ s], by simp, fun e he => ?_, by rw [List.append_assoc, hjoin]⟩
  rcases List.mem_append.1 he with he | he
  · exact hall e (List.mem_append_left _ he)
  obtain rfl := List.mem_singleton.1 he
  obtain ⟨hlast, hlast', -⟩ := hall last (by simp)
  refine ⟨by simp [hlast], by simp [hlast', hslash], fun h => ?_, fun h => ?_⟩
  · have hmem : b ∈ str "." := h ▸ List.mem_append_right _ hb
    exact hdot (List.mem_singleton.1 hmem)
  · have hmem : b ∈ str ".." := h ▸ List.mem_append_right _ hb
    change b ∈ ([46, 46] : Str) at hmem
    exact hdot (by simpa using hmem)

/-! ### Numbers -/

/-- An ASCII digit. -/
def digit (c : UInt8) : Bool := 48 ≤ c ∧ c ≤ 57

/-- The number that digits stand for. -/
def digitsValue (s : Str) : ℕ := s.foldl (fun n c => 10 * n + (c.toNat - 48)) 0

/-- `strconv.ParseInt` to the base ten for 64 bits, and `strconv.Atoi`. -/
def parseInt (s : Str) : Option ℤ :=
  let signed : Bool × Str := match s with
    | 43 :: rest => (false, rest)
    | 45 :: rest => (true, rest)
    | _ => (false, s)
  if signed.2 = [] ∨ signed.2.all digit = false then none
  else
    let n : ℤ := if signed.1 then -digitsValue signed.2 else digitsValue signed.2
    if -9223372036854775808 ≤ n ∧ n ≤ maxInt64 then some n else none

/-- The byte of an ASCII character. -/
def asciiByte (c : Char) : UInt8 := UInt8.ofNat c.toNat

theorem range_of_isDigit {c : Char} (h : c.isDigit = true) : 48 ≤ c.toNat ∧ c.toNat ≤ 57 := by
  simp only [Char.isDigit, Bool.and_eq_true, decide_eq_true_eq, ge_iff_le, UInt32.le_iff_toNat_le] at h
  exact h

theorem utf8EncodeChar_digit {c : Char} (h : c.isDigit = true) : String.utf8EncodeChar c = [asciiByte c] := by
  have hr := range_of_isDigit h
  unfold String.utf8EncodeChar
  rw [if_pos (by change c.toNat ≤ 127; omega)]
  rfl

theorem asciiByte_toNat {c : Char} (h : c.isDigit = true) : (asciiByte c).toNat = c.toNat := by
  have hr := range_of_isDigit h
  rw [asciiByte, UInt8.toNat_ofNat', Nat.mod_eq_of_lt (by omega)]

theorem itoa_natCast (n : ℕ) : itoa n = (Nat.toDigits 10 n).map asciiByte := by
  have hdigits : ∀ l : List Char, (∀ c ∈ l, c.isDigit = true) →
      l.flatMap String.utf8EncodeChar = l.map asciiByte := by
    intro l hl
    induction l with
    | nil => rfl
    | cons c l ih =>
      rw [List.flatMap_cons, utf8EncodeChar_digit (hl c List.mem_cons_self), List.map_cons,
        ih fun c hc => hl c (List.mem_cons_of_mem _ hc)]
      rfl
  rw [itoa, str, Int.toString_eq_repr, Int.repr_eq_if, if_pos (Int.natCast_nonneg n), Int.toNat_natCast,
    Nat.toList_repr]
  exact hdigits _ fun c hc => Nat.isDigit_of_mem_toDigits (by decide) (by decide) hc

theorem digit_of_mem_itoa {n : ℕ} {b : UInt8} (h : b ∈ itoa n) : digit b = true := by
  rw [itoa_natCast] at h
  obtain ⟨c, hc, rfl⟩ := List.mem_map.1 h
  have hd := Nat.isDigit_of_mem_toDigits (by decide) (by decide) hc
  have hr := range_of_isDigit hd
  simp only [digit, decide_eq_true_eq, UInt8.le_iff_toNat_le, asciiByte_toNat hd]
  exact hr

theorem itoa_graphic (n : ℕ) : (itoa n).all graphic = true := by
  refine List.all_eq_true.2 fun b hb => ?_
  have hdigit := digit_of_mem_itoa hb
  simp only [digit, graphic, decide_eq_true_eq, UInt8.le_iff_toNat_le] at hdigit ⊢
  change 48 ≤ b.toNat ∧ b.toNat ≤ 57 at hdigit
  change 33 ≤ b.toNat ∧ b.toNat ≤ 126
  omega

theorem itoa_ne_nil (n : ℕ) : itoa n ≠ [] := by
  rw [itoa_natCast, Nat.toDigits_eq_if (by decide)]
  split
  · exact List.cons_ne_nil _ _
  · simp

theorem digitsValue_itoa (n : ℕ) : digitsValue (itoa n) = n := by
  have hfold : ∀ (l : List Char) (init : ℕ), (∀ c ∈ l, c.isDigit = true) →
      (l.map asciiByte).foldl (fun n c => 10 * n + (c.toNat - 48)) init =
        l.foldl (fun n c => 10 * n + (c.toNat - '0'.toNat)) init := by
    intro l
    induction l with
    | nil => exact fun _ _ => rfl
    | cons c l ih =>
      intro init hl
      rw [List.map_cons, List.foldl_cons, List.foldl_cons, asciiByte_toNat (hl c List.mem_cons_self),
        ih _ fun c hc => hl c (List.mem_cons_of_mem _ hc)]
      rfl
  rw [digitsValue, itoa_natCast, hfold _ 0 fun c hc => Nat.isDigit_of_mem_toDigits (by decide) (by decide) hc,
    ← Nat.ofDigitChars_eq_foldl, Nat.ofDigitChars_toDigits (by decide) (by decide)]

/-- **A number that is printed is read back.** -/
theorem parseInt_itoa {n : ℤ} (h0 : 0 ≤ n) (h1 : n ≤ maxInt64) : parseInt (itoa n) = some n := by
  obtain ⟨m, rfl⟩ := Int.eq_ofNat_of_zero_le h0
  have hall : (itoa m).all digit = true := List.all_eq_true.2 fun b hb => digit_of_mem_itoa hb
  have hne := itoa_ne_nil m
  have hsign : (match itoa m with
      | 43 :: rest => (false, rest)
      | 45 :: rest => (true, rest)
      | _ => (false, itoa m) : Bool × Str) = (false, itoa m) := by
    split
    · rename_i rest heq
      rw [heq] at hall
      cases (List.all_cons ▸ hall : (digit 43 && rest.all digit) = true)
    · rename_i rest heq
      rw [heq] at hall
      cases (List.all_cons ▸ hall : (digit 45 && rest.all digit) = true)
    · rfl
  unfold parseInt
  simp only [hsign, hne, hall, false_or, Bool.true_eq_false, if_false, digitsValue_itoa, Bool.false_eq_true]
  rw [if_pos ⟨by omega, h1⟩]

end Distort.Go
