import Mathlib.Data.List.GetD
import Distort.Go.Fields
import Distort.Go.Text

/-!
The mount table: `mountinfo.go`, against what the kernel prints.

* `parseMountInfo`, `mountAt` — the code;
* `Mount`, `Mount.print`, `printTable` — a mount, and the text that the kernel prints for a table of them;
* `readable_iff` — a row is read back exactly if its source is there and no path in it has white space that the
  kernel does not escape;
* `table_faithful_iff` — the same for tables, and what `mountAt` then finds.
-/

namespace Distort.Csi

open Go

/-! ### The code -/

/-- `mountRecord`; the options are the keys of a map. -/
structure MountRecord where
  majorMinor : Str
  root : Str
  target : Str
  filesystem : Str
  source : Str
  options : List Str
  deriving DecidableEq

/-- `unescapeMountInfoField`: the first of the four escapes that stands at a place is replaced, and the text behind it
is gone through in turn. -/
def unescapeMountInfoField : Str → Str
  | 92 :: a :: b :: c :: rest =>
    if [a, b, c] = str "040" then 32 :: unescapeMountInfoField rest
    else if [a, b, c] = str "011" then 9 :: unescapeMountInfoField rest
    else if [a, b, c] = str "012" then 10 :: unescapeMountInfoField rest
    else if [a, b, c] = str "134" then 92 :: unescapeMountInfoField rest
    else 92 :: unescapeMountInfoField (a :: b :: c :: rest)
  | b :: rest => b :: unescapeMountInfoField rest
  | [] => []

/-- One row, by its words; `none` if it is invalid. -/
def mountRecordOf (words : List Str) : Option MountRecord :=
  match words.findIdx? (· == str "-") with
  | none => none
  | some separator =>
    if words.length < 10 ∨ separator < 6 ∨ separator + 3 ≥ words.length then none
    else some {
      majorMinor := words.getD 2 []
      root := clean (unescapeMountInfoField (words.getD 3 []))
      target := clean (unescapeMountInfoField (words.getD 4 []))
      filesystem := words.getD (separator + 1) []
      source := unescapeMountInfoField (words.getD (separator + 2) [])
      options := (words.getD 5 []).splitOn 44 ++ (words.getD (separator + 3) []).splitOn 44 }

/-- The loop of `parseMountInfo`. -/
def parseRows : List Str → Except Err (List MountRecord)
  | [] => .ok []
  | line :: lines =>
    if fields line = [] then parseRows lines
    else match mountRecordOf (fields line) with
      | none => .error (.errorf "invalid mountinfo row %q" [.str line])
      | some record => (parseRows lines).map (record :: ·)

def parseMountInfo [StdLib] (data : Str) : Except Err (List MountRecord) := parseRows ((trimSpace data).splitOn 10)

/-- `mountAt`, by what reading the table gives. -/
def mountAt [StdLib] (readMountInfo : Except Err Str) (target : Str) : Except Err (Option MountRecord) :=
  match readMountInfo with
  | .error err => .error (.wrapf "read mountinfo: %w" [] err)
  | .ok data => (parseMountInfo data).map fun records => records.reverse.find? fun r => r.target = clean target

/-! ### The kernel -/

/-- A mount.  The options are as they are printed. -/
structure Mount where
  id : ℕ
  parent : ℕ
  device : ℕ × ℕ
  root : Str
  target : Str
  options : Str
  optional : List Str
  filesystem : Str
  source : Str
  superOptions : Str

/-- A byte of a path in the table. -/
def mangleByte (b : UInt8) : Str :=
  if b = 32 then "\\040" else if b = 9 then "\\011" else if b = 10 then "\\012" else if b = 92 then "\\134" else [b]

def mangle (path : Str) : Str := path.flatMap mangleByte

namespace Mount

def majorMinor (m : Mount) : Str := itoa m.device.1 ++ 58 :: itoa m.device.2

/-- The texts between the blanks of a row. -/
def texts (m : Mount) : List Str :=
  [itoa m.id, itoa m.parent, m.majorMinor, mangle m.root, mangle m.target, m.options] ++ m.optional ++
    [str "-", m.filesystem, mangle m.source, m.superOptions]

def print (m : Mount) : Str := join m.texts " "

/-- A text that starts and goes on as the kernel's own words do. -/
def Word (s : Str) : Prop := s ≠ [] ∧ s.all graphic = true ∧ s ≠ str "-"

instance (s : Str) : Decidable (Word s) := inferInstanceAs (Decidable (_ ∧ _))

/-- What the kernel guarantees of a mount: its paths are absolute and clean, its options, tags and filesystem are words,
and the options of its superblock start with a word and have no blank, tab or line break. -/
structure Wf (m : Mount) : Prop where
  root : m.root.head? = some 47 ∧ clean m.root = m.root
  target : m.target.head? = some 47 ∧ clean m.target = m.target
  options : Word m.options
  optional : ∀ o ∈ m.optional, Word o
  filesystem : Word m.filesystem
  superOptions : m.superOptions.head?.any graphic = true ∧ ∀ b ∈ m.superOptions, b ≠ 32 ∧ b ≠ 9 ∧ b ≠ 10

end Mount

/-- The table: one row after the other. -/
def printTable (table : List Mount) : Str := table.flatMap fun m => m.print ++ [10]

/-! ### Escapes -/

theorem mangleByte_eq {b : UInt8} (h : b ≠ 32 ∧ b ≠ 9 ∧ b ≠ 10 ∧ b ≠ 92) : mangleByte b = [b] := by
  unfold mangleByte
  rw [if_neg h.1, if_neg h.2.1, if_neg h.2.2.1, if_neg h.2.2.2]

/-- **Escapes are read back.** -/
theorem unescape_mangle (path : Str) : unescapeMountInfoField (mangle path) = path := by
  induction path with
  | nil => rfl
  | cons b path ih =>
    have hcons : mangle (b :: path) = mangleByte b ++ mangle path := List.flatMap_cons
    rw [hcons]
    by_cases hb : b ≠ 32 ∧ b ≠ 9 ∧ b ≠ 10 ∧ b ≠ 92
    · rw [mangleByte_eq hb, List.singleton_append]
      have hplain : unescapeMountInfoField (b :: mangle path) = b :: unescapeMountInfoField (mangle path) := by
        rw [unescapeMountInfoField]
        rintro _ _ _ _ rfl -
        exact hb.2.2.2 rfl
      rw [hplain, ih]
    · have hescaped : b = 32 ∨ b = 9 ∨ b = 10 ∨ b = 92 := by
        by_contra hnone
        simp only [not_or] at hnone
        exact hb hnone
      rcases hescaped with rfl | rfl | rfl | rfl
      · exact congrArg (32 :: ·) ih
      · exact congrArg (9 :: ·) ih
      · exact congrArg (10 :: ·) ih
      · exact congrArg (92 :: ·) ih

/-- The bytes of escapes. -/
def escapeBytes : Str := "\\01234"

theorem mangleByte_cases (b : UInt8) :
    (∀ c ∈ mangleByte b, c ∈ escapeBytes) ∨ mangleByte b = [b] ∧ b ≠ 32 ∧ b ≠ 9 ∧ b ≠ 10 := by
  unfold mangleByte
  split_ifs with h1 h2 h3 h4
  · left; decide +kernel
  · left; decide +kernel
  · left; decide +kernel
  · left; decide +kernel
  · exact .inr ⟨rfl, h1, h2, h3⟩

theorem mangle_cons (b : UInt8) (path : Str) : mangle (b :: path) = mangleByte b ++ mangle path := List.flatMap_cons

theorem mem_mangle {path : Str} {c : UInt8} (h : c ∈ mangle path) : c ≠ 32 ∧ c ≠ 9 ∧ c ≠ 10 := by
  obtain ⟨b, -, hc⟩ := List.mem_flatMap.1 h
  rcases mangleByte_cases b with hb | ⟨hb, hplain⟩
  · have hescape : ∀ c ∈ escapeBytes, c ≠ 32 ∧ c ≠ 9 ∧ c ≠ 10 := by decide +kernel
    exact hescape c (hb c hc)
  rw [hb, List.mem_singleton] at hc
  rw [hc]
  exact hplain

/-- A byte that is no part of an escape stands for itself, and what is in front of it for what was. -/
theorem mangle_split {path x y : Str} {c : UInt8} (hc : c ∉ escapeBytes) (h : mangle path = x ++ c :: y) :
    ∃ path1 path2, path = path1 ++ c :: path2 ∧ x = mangle path1 := by
  induction path generalizing x with
  | nil => simp [mangle] at h
  | cons b path ih =>
    rw [mangle_cons] at h
    rcases List.append_eq_append_iff.1 h with ⟨x', rfl, hrest⟩ | ⟨t, hbyte, hrest⟩
    · obtain ⟨path1, path2, rfl, rfl⟩ := ih hrest
      exact ⟨b :: path1, path2, rfl, (mangle_cons b path1).symm⟩
    cases t with
    | nil =>
      obtain ⟨path1, path2, rfl, hnil⟩ := ih (x := []) hrest.symm
      refine ⟨b :: path1, path2, rfl, ?_⟩
      rw [mangle_cons, ← hnil, List.append_nil, hbyte, List.append_nil]
    | cons c' t =>
      obtain ⟨rfl, -⟩ := List.cons.inj hrest
      have hmem : c ∈ mangleByte b := by
        rw [hbyte]
        simp
      rcases mangleByte_cases b with hb | ⟨hb, -⟩
      · exact absurd (hb c hmem) hc
      rw [hb] at hbyte hmem
      obtain rfl := List.mem_singleton.1 hmem
      have hx : x = [] := by
        have hlen := congrArg List.length hbyte
        simp only [List.length_append, List.length_cons, List.length_nil] at hlen
        exact List.length_eq_zero_iff.1 (by omega)
      exact ⟨[], path, rfl, hx⟩

/-! ### Words of a row -/

theorem solid_of_graphic {s : Str} (h : s.all graphic = true) : Solid s := by
  have hspace : ∀ r ∈ spaceRunes, ∀ b, r.head? = some b → graphic b = false := by decide +kernel
  refine solid_of_bytes fun b hb r hr heq => ?_
  rw [List.all_eq_true] at h
  exact absurd (h b hb) (by rw [hspace r hr b heq]; decide)

theorem mangle_head {path : Str} (h : path.head? = some 47) : ∃ rest, mangle path = 47 :: rest := by
  cases path with
  | nil => cases h
  | cons b path =>
    obtain rfl := Option.some.inj h
    exact ⟨mangle path, rfl⟩

theorem fields_join {texts : List Str} (h : texts ≠ []) : fields (join texts " ") = texts.flatMap fields := by
  induction texts with
  | nil => exact absurd rfl h
  | cons text texts ih =>
    by_cases hlast : texts = []
    · subst hlast
      simp [join]
    · rw [join_cons text hlast, List.append_assoc, fields_append (r := str " ") (by decide), ih hlast, List.flatMap_cons]

theorem path_word {path : Str} (h : path.head? = some 47 ∧ clean path = path) : ∃ w ws, fields (mangle path) = w :: ws ∧
    (clean (unescapeMountInfoField w) = path ↔ Solid (mangle path)) ∧ (Solid (mangle path) → w = mangle path ∧ ws = []) := by
  obtain ⟨rest, hrest⟩ := mangle_head h.1
  by_cases hsolid : Solid (mangle path)
  · refine ⟨mangle path, [], fields_word (by rw [hrest]; simp) hsolid, iff_of_true ?_ hsolid, fun _ => ⟨rfl, rfl⟩⟩
    rw [unescape_mangle, h.2]
  obtain ⟨x, r, y, hr, heq, hx⟩ := exists_space hsolid
  have hhead : ∀ r ∈ spaceRunes, r.head? ≠ some 47 ∧ ∀ c, r.head? = some c → c ∉ escapeBytes := by decide +kernel
  obtain ⟨c, t, rfl⟩ := List.exists_cons_of_ne_nil (spaceRune_ne_nil r hr)
  have hne : x ≠ [] := by
    rintro rfl
    rw [hrest] at heq
    exact (hhead _ hr).1 (by rw [(List.cons.inj heq).1]; rfl)
  obtain ⟨path1, path2, rfl, rfl⟩ := mangle_split ((hhead _ hr).2 c rfl) heq
  refine ⟨mangle path1, fields y, ?_, iff_of_false ?_ hsolid, fun h => absurd h hsolid⟩
  · rw [heq, fields_append hr, fields_word hne hx]
    rfl
  · -- the part of a path in front of white space is shorter, cleaned or not
    intro hclean
    have hpath1 : path1.head? = some 47 := by
      cases path1 with
      | nil => exact absurd rfl hne
      | cons b path1 => exact h.1
    have hshort := clean_length_le hpath1
    rw [unescape_mangle] at hclean
    rw [hclean, List.length_append, List.length_cons] at hshort
    omega

theorem mountRecordOf_words {front : List Str} {filesystem : Str} {rest : List Str} (hlen : 6 ≤ front.length)
    (hdash : str "-" ∉ front) : mountRecordOf (front ++ str "-" :: filesystem :: rest) =
      match rest with
      | source :: superOptions :: _ => some {
          majorMinor := front.getD 2 []
          root := clean (unescapeMountInfoField (front.getD 3 []))
          target := clean (unescapeMountInfoField (front.getD 4 []))
          filesystem
          source := unescapeMountInfoField source
          options := (front.getD 5 []).splitOn 44 ++ superOptions.splitOn 44 }
      | _ => none := by
  have hindex : (front ++ str "-" :: filesystem :: rest).findIdx? (· == str "-") = some front.length := by
    have hnone : front.findIdx? (· == str "-") = none := by
      rw [List.findIdx?_eq_none_iff]
      intro s hs
      rw [beq_eq_false_iff_ne]
      rintro rfl
      exact hdash hs
    rw [List.findIdx?_append, hnone]
    simp [List.findIdx?_cons]
  have hfront : ∀ i < 6, (front ++ str "-" :: filesystem :: rest).getD i [] = front.getD i [] := by
    intro i hi
    rw [List.getD_append _ _ _ _ (by omega)]
  unfold mountRecordOf
  rw [hindex]
  match rest with
  | [] => simp
  | [source] => simp
  | source :: superOptions :: more =>
    have hlong : ¬((front ++ str "-" :: filesystem :: source :: superOptions :: more).length < 10 ∨ front.length < 6 ∨
        front.length + 3 ≥ (front ++ str "-" :: filesystem :: source :: superOptions :: more).length) := by
      simp only [List.length_append, List.length_cons]
      omega
    simp only [hlong, if_false]
    rw [hfront 2 (by omega), hfront 3 (by omega), hfront 4 (by omega), hfront 5 (by omega)]
    simp

theorem solid_splitOn (s : Str) : Solid s ↔ ∀ o ∈ s.splitOn 44, Solid o := by
  have hjoin : ∀ l : List Str, l ≠ [] → (Solid (join l ",") ↔ ∀ o ∈ l, Solid o) := by
    intro l
    induction l with
    | nil => exact fun h => absurd rfl h
    | cons o l ih =>
      intro _
      by_cases hl : l = []
      · subst hl
        simp [join]
      have hcomma : Solid (44 :: join l ",") ↔ Solid (join l ",") := by
        rw [Solid, marks_byte (spaceAt_eq_none (by decide) _), List.mem_cons, not_or]
        exact ⟨fun h => h.2, fun h => ⟨by simp, h⟩⟩
      have hsplit : join (o :: l) "," = o ++ 44 :: join l "," := by
        rw [join_cons o hl, List.append_assoc]
        rfl
      rw [hsplit, solid_append (y := 44 :: join l ",") rfl, hcomma, ih hl, List.forall_mem_cons]
  have hs : join (s.splitOn 44) "," = s := List.intercalate_splitOn (44 : UInt8)
  rw [← hjoin _ (List.splitOn_ne_nil _ _), hs]

/-! ### Rows -/

namespace Mount

variable {m : Mount}

theorem Word.solid {s : Str} (h : Word s) : fields s = [s] := fields_word h.1 (solid_of_graphic h.2.1)

theorem fields_itoa (n : ℕ) : fields (itoa n) = [itoa n] := fields_word (itoa_ne_nil n) (solid_of_graphic (itoa_graphic n))

theorem fields_majorMinor (m : Mount) : fields m.majorMinor = [m.majorMinor] := by
  refine fields_word (by simp [majorMinor]) (solid_of_graphic ?_)
  simp only [majorMinor, List.all_append, List.all_cons, itoa_graphic, Bool.true_and, Bool.and_true]
  decide

/-- **The words of a row.** -/
theorem fields_print (h : m.Wf) : fields m.print =
    [itoa m.id, itoa m.parent, m.majorMinor] ++ fields (mangle m.root) ++ fields (mangle m.target) ++
      (m.options :: m.optional) ++ str "-" :: m.filesystem :: (fields (mangle m.source) ++ fields m.superOptions) := by
  have hoptional : m.optional.flatMap fields = m.optional := by
    have hall := h.optional
    revert hall
    generalize m.optional = l
    intro hall
    induction l with
    | nil => rfl
    | cons o l ih =>
      rw [List.flatMap_cons, (hall o (List.mem_cons_self ..)).solid, ih fun o ho => hall o (List.mem_cons_of_mem _ ho)]
      rfl
  have hdash : fields (str "-") = [str "-"] := by decide
  rw [print, fields_join (by simp [texts]), texts]
  simp only [List.flatMap_append, List.flatMap_cons, List.flatMap_nil, fields_itoa, fields_majorMinor, h.options.solid,
    hoptional, hdash, h.filesystem.solid, List.append_assoc, List.append_nil, List.cons_append, List.nil_append]

/-- The record of a mount: everything but the source is as it was. -/
structure Faithful (m : Mount) (r : MountRecord) : Prop where
  majorMinor : r.majorMinor = m.majorMinor
  root : r.root = m.root
  target : r.target = m.target
  filesystem : r.filesystem = m.filesystem
  options : ∀ o, o ∈ r.options ↔ o ∈ m.options.splitOn 44 ++ m.superOptions.splitOn 44

/-- A row that can be read: the paths and the options have no white space when they are printed, and there is a source;
if it has white space, the word behind its first one has the options of the superblock. -/
def Readable (m : Mount) : Prop :=
  Solid (mangle m.root) ∧ Solid (mangle m.target) ∧ Solid m.superOptions ∧
    ∃ a b rest, fields (mangle m.source) ++ [m.superOptions] = a :: b :: rest ∧
      ∀ o, o ∈ m.options.splitOn 44 ++ b.splitOn 44 ↔ o ∈ m.options.splitOn 44 ++ m.superOptions.splitOn 44

theorem itoa_ne_dash (n : ℕ) : itoa n ≠ str "-" := by
  intro h
  have hdash : (45 : UInt8) ∈ itoa n := by
    rw [h]
    decide
  exact absurd (digit_of_mem_itoa hdash) (by decide)

theorem mountRecordOf_print (h : m.Wf) (hroot : Solid (mangle m.root)) (htarget : Solid (mangle m.target)) :
    mountRecordOf (fields m.print) = match fields (mangle m.source) ++ fields m.superOptions with
      | source :: superOptions :: _ => some {
          majorMinor := m.majorMinor, root := m.root, target := m.target, filesystem := m.filesystem
          source := unescapeMountInfoField source
          options := m.options.splitOn 44 ++ superOptions.splitOn 44 }
      | _ => none := by
  have hword : ∀ {path : Str}, path.head? = some 47 → Solid (mangle path) →
      fields (mangle path) = [mangle path] ∧ str "-" ≠ mangle path := by
    intro path hhead hsolid
    obtain ⟨rest, hrest⟩ := mangle_head hhead
    refine ⟨fields_word (by rw [hrest]; simp) hsolid, ?_⟩
    rw [hrest]
    exact fun heq => absurd (List.cons.inj heq).1 (by decide)
  obtain ⟨hr, hrdash⟩ := hword h.root.1 hroot
  obtain ⟨ht, htdash⟩ := hword h.target.1 htarget
  have hmajor : str "-" ≠ m.majorMinor := by
    intro heq
    have hcolon : (58 : UInt8) ∈ str "-" := by
      rw [heq, majorMinor]
      simp
    exact absurd hcolon (by decide)
  have hdash : str "-" ∉ [itoa m.id, itoa m.parent, m.majorMinor, mangle m.root, mangle m.target, m.options] ++ m.optional := by
    simp only [List.mem_append, List.mem_cons, List.not_mem_nil, or_false, not_or]
    refine ⟨⟨(itoa_ne_dash _).symm, (itoa_ne_dash _).symm, hmajor, hrdash, htdash, h.options.2.2.symm⟩, fun hmem => ?_⟩
    exact (h.optional _ hmem).2.2 rfl
  rw [fields_print h, hr, ht]
  refine Eq.trans (mountRecordOf_words (by simp) hdash) ?_
  simp only [List.cons_append, List.nil_append, List.getD_cons_succ, List.getD_cons_zero, unescape_mangle, h.root.2, h.target.2]

theorem mountRecordOf_paths {words : List Str} {r : MountRecord} (h : mountRecordOf words = some r) :
    r.root = clean (unescapeMountInfoField (words.getD 3 [])) ∧ r.target = clean (unescapeMountInfoField (words.getD 4 [])) := by
  unfold mountRecordOf at h
  split at h
  · cases h
  split at h
  · cases h
  · cases h
    exact ⟨rfl, rfl⟩

theorem solid_of_faithful (h : m.Wf) {r : MountRecord} (hr : mountRecordOf (fields m.print) = some r) (hf : m.Faithful r) :
    Solid (mangle m.root) ∧ Solid (mangle m.target) := by
  obtain ⟨w, ws, hw, hroot, hrest⟩ := path_word h.root
  obtain ⟨v, vs, hv, htarget, -⟩ := path_word h.target
  have hpaths := mountRecordOf_paths hr
  rw [fields_print h, hw, hv, hf.root, hf.target] at hpaths
  have hsolid : Solid (mangle m.root) := hroot.1 hpaths.1.symm
  obtain ⟨rfl, rfl⟩ := hrest hsolid
  exact ⟨hsolid, htarget.1 hpaths.2.symm⟩

/-- **When a row is read back.** -/
theorem readable_iff (h : m.Wf) : (∃ r, mountRecordOf (fields m.print) = some r ∧ m.Faithful r) ↔ m.Readable := by
  have hsuper : m.superOptions ≠ [] := by
    intro hnil
    have hhead := h.superOptions.1
    rw [hnil] at hhead
    cases hhead
  constructor
  · rintro ⟨r, hr, hf⟩
    obtain ⟨hroot, htarget⟩ := solid_of_faithful h hr hf
    rw [mountRecordOf_print h hroot htarget] at hr
    split at hr
    · rename_i source b rest hwords
      cases hr
      have hb : Solid b := by
        have hmem : b ∈ fields (mangle m.source) ++ fields m.superOptions := by
          rw [hwords]
          simp
        exact (List.mem_append.1 hmem).elim solid_of_mem_fields solid_of_mem_fields
      -- every option that was printed is one that was read, and those have no white space
      have hsolid : Solid m.superOptions := by
        refine (solid_splitOn _).2 fun o ho => ?_
        rcases List.mem_append.1 ((hf.options o).2 (List.mem_append_right _ ho)) with hmem | hmem
        · exact (solid_splitOn _).1 (solid_of_graphic h.options.2.1) o hmem
        · exact (solid_splitOn _).1 hb o hmem
      rw [fields_word hsuper hsolid] at hwords
      exact ⟨hroot, htarget, hsolid, source, b, rest, hwords, hf.options⟩
    · cases hr
  · rintro ⟨hroot, htarget, hsolid, a, b, rest, hwords, hoptions⟩
    rw [mountRecordOf_print h hroot htarget, fields_word hsuper hsolid, hwords]
    exact ⟨_, rfl, rfl, rfl, rfl, rfl, hoptions⟩

end Mount

/-! ### Lines -/

/-- The rows of a text, by their words; lines without a word are skipped. -/
def rowsOf (s : Str) : List (List Str) := ((s.splitOn 10).map fields).filter (· ≠ [])

theorem rowsOf_newline (x y : Str) : rowsOf (x ++ 10 :: y) = rowsOf x ++ rowsOf y := by
  have hsplit : (x ++ 10 :: y).splitOn 10 = x.splitOn 10 ++ y.splitOn 10 :=
    List.splitOnP_append_cons (p := fun b => b == (10 : UInt8)) x y rfl
  rw [rowsOf, hsplit, List.map_append, List.filter_append]
  rfl

theorem rowsOf_line {line : Str} (h : (10 : UInt8) ∉ line) : rowsOf line = [fields line].filter (· ≠ []) := by
  have hsplit : line.splitOn 10 = [line] := by
    have hone : ([10].intercalate [line]).splitOn 10 = [line] := List.splitOn_intercalate 10 (by simpa using h) (by simp)
    simpa using hone
  rw [rowsOf, hsplit]
  rfl

theorem exists_line (s : Str) : (10 : UInt8) ∉ s ∨ ∃ line rest, s = line ++ 10 :: rest ∧ (10 : UInt8) ∉ line := by
  by_cases h : (10 : UInt8) ∈ s
  · obtain ⟨line, rest, heq, hline⟩ := List.eq_append_cons_of_mem h
    exact .inr ⟨line, rest, heq, hline⟩
  · exact .inl h

theorem spaceRune_newline : ∀ r ∈ spaceRunes, r = [10] ∨ (10 : UInt8) ∉ r := by decide

theorem rowsOf_space {r : Str} (hr : r ∈ spaceRunes) (s : Str) : rowsOf (r ++ s) = rowsOf s := by
  rcases spaceRune_newline r hr with rfl | hnewline
  · exact rowsOf_newline [] s
  have hline : ∀ line : Str, (10 : UInt8) ∉ line → rowsOf (r ++ line) = rowsOf line := by
    intro line h
    rw [rowsOf_line (by simp [hnewline, h]), rowsOf_line h]
    exact congrArg (fun words => [words].filter (· ≠ [])) (fields_append hr [] line)
  rcases exists_line s with h | ⟨line, rest, rfl, h⟩
  · exact hline s h
  · rw [← List.append_assoc, rowsOf_newline, rowsOf_newline, hline line h]

theorem rowsOf_append_space {r : Str} (hr : r ∈ spaceRunes) (s : Str) : rowsOf (s ++ r) = rowsOf s := by
  rcases spaceRune_newline r hr with rfl | hnewline
  · exact (rowsOf_newline s []).trans (List.append_nil _)
  induction hlen : s.length using Nat.strong_induction_on generalizing s with
  | h len ih =>
    rcases exists_line s with h | ⟨line, rest, rfl, h⟩
    · rw [rowsOf_line (by simp [hnewline, h]), rowsOf_line h]
      have hwords := fields_append hr s []
      rw [List.append_nil, fields_nil, List.append_nil] at hwords
      rw [hwords]
    · simp only [List.length_append, List.length_cons] at hlen
      rw [List.append_assoc, List.cons_append, rowsOf_newline, rowsOf_newline, ih rest.length (by omega) rest rfl]

theorem rowsOf_trimSpace [StdLib] [StdLib.Trims] (s : Str) : rowsOf (trimSpace s) = rowsOf s := by
  obtain ⟨front, back, hfront, hback, heq⟩ := StdLib.Trims.trim s
  have hend : ∀ (l : List Str) (t : Str), (∀ r ∈ l, r ∈ spaceRunes) → rowsOf (t ++ l.flatten) = rowsOf t := by
    intro l
    induction l with
    | nil => intro t _; simp
    | cons r l ih =>
      intro t hl
      rw [List.flatten_cons, ← List.append_assoc, ih (t ++ r) fun r' hr' => hl r' (List.mem_cons_of_mem _ hr'),
        rowsOf_append_space (hl r (List.mem_cons_self ..))]
  have hstart : ∀ (l : List Str) (t : Str), (∀ r ∈ l, r ∈ spaceRunes) → rowsOf (l.flatten ++ t) = rowsOf t := by
    intro l
    induction l with
    | nil => intro t _; rfl
    | cons r l ih =>
      intro t hl
      rw [List.flatten_cons, List.append_assoc, rowsOf_space (hl r (List.mem_cons_self ..)),
        ih t fun r' hr' => hl r' (List.mem_cons_of_mem _ hr')]
  conv_rhs => rw [heq]
  rw [hstart front _ hfront, hend back _ hback]
  rfl

/-- **What the parser returns**, by rows. -/
theorem parseRows_eq_ok {lines : List Str} {records : List MountRecord} : parseRows lines = .ok records ↔
    ((lines.map fields).filter (· ≠ [])).mapM mountRecordOf = some records := by
  induction lines generalizing records with
  | nil => simp [parseRows, eq_comm]
  | cons line lines ih =>
    rw [parseRows]
    by_cases hblank : fields line = []
    · simp [hblank, ih]
    rw [if_neg hblank]
    rw [List.map_cons, List.filter_cons_of_pos (by simpa using hblank), List.mapM_cons]
    cases hrow : mountRecordOf (fields line) with
    | none => exact iff_of_false nofun nofun
    | some record =>
      constructor
      · intro h
        rcases hrest : parseRows lines with err | rest
        · rw [hrest] at h
          cases h
        rw [hrest] at h
        cases h
        rw [ih.1 hrest]
        rfl
      · intro h
        obtain ⟨_, hsame, h⟩ := Option.bind_eq_some_iff.1 h
        cases hsame
        obtain ⟨rest, hrest, heq⟩ := Option.bind_eq_some_iff.1 h
        cases heq
        rw [ih.2 hrest]
        rfl

/-! ### Tables -/

theorem Mount.newline_print {m : Mount} (h : m.Wf) : (10 : UInt8) ∉ m.print := by
  have hword : ∀ {s : Str}, s.all graphic = true → (10 : UInt8) ∉ s := fun hs hmem =>
    absurd (List.all_eq_true.1 hs 10 hmem) (by decide)
  have hpath : ∀ path, (10 : UInt8) ∉ mangle path := fun path hmem => (mem_mangle hmem).2.2 rfl
  have htexts : ∀ text ∈ m.texts, (10 : UInt8) ∉ text := by
    intro text htext
    simp only [Mount.texts, List.mem_append, List.mem_cons, List.not_mem_nil, or_false] at htext
    rcases htext with (((rfl | rfl | rfl | rfl | rfl | rfl) | hoptional) | rfl | rfl | rfl | rfl)
    · exact hword (itoa_graphic _)
    · exact hword (itoa_graphic _)
    · simp only [majorMinor, List.mem_append, List.mem_cons, not_or]
      exact ⟨hword (itoa_graphic _), by decide, hword (itoa_graphic _)⟩
    · exact hpath _
    · exact hpath _
    · exact hword h.options.2.1
    · exact hword (h.optional _ hoptional).2.1
    · decide
    · exact hword h.filesystem.2.1
    · exact hpath _
    · exact fun hmem => (h.superOptions.2 10 hmem).2.2 rfl
  exact not_mem_join (by decide) htexts

variable {table : List Mount}

theorem rowsOf_printTable (h : ∀ m ∈ table, m.Wf) : rowsOf (printTable table) = table.map fun m => fields m.print := by
  induction table with
  | nil => rfl
  | cons m table ih =>
    have hm := h m (List.mem_cons_self ..)
    have hne : fields m.print ≠ [] := by
      rw [Mount.fields_print hm]
      simp
    rw [printTable, List.flatMap_cons, List.append_assoc, List.singleton_append, rowsOf_newline,
      rowsOf_line (Mount.newline_print hm), ← printTable, ih fun m hm => h m (List.mem_cons_of_mem _ hm)]
    simp [hne]

/-- The table is read back: one record for each mount, in order. -/
def ReadBack [StdLib] (table : List Mount) : Prop :=
  ∃ records, parseMountInfo (printTable table) = .ok records ∧ List.Forall₂ Mount.Faithful table records

theorem forall₂_rows (h : ∀ m ∈ table, m.Wf) :
    (∃ records, (table.map fun m => fields m.print).mapM mountRecordOf = some records ∧
      List.Forall₂ Mount.Faithful table records) ↔ ∀ m ∈ table, m.Readable := by
  induction table with
  | nil => simp
  | cons m table ih =>
    have hm := Mount.readable_iff (h m (List.mem_cons_self ..))
    rw [List.forall_mem_cons, ← hm, ← ih fun m hm => h m (List.mem_cons_of_mem _ hm)]
    constructor
    · rintro ⟨records, hrows, hall⟩
      obtain _ | ⟨hr, hrest⟩ := hall
      rw [List.map_cons, List.mapM_cons] at hrows
      obtain ⟨r', hrow, hrows⟩ := Option.bind_eq_some_iff.1 hrows
      obtain ⟨rest', hrows, heq⟩ := Option.bind_eq_some_iff.1 hrows
      cases heq
      exact ⟨⟨_, hrow, hr⟩, _, hrows, hrest⟩
    · rintro ⟨⟨r, hrow, hr⟩, rest, hrows, hrest⟩
      refine ⟨r :: rest, ?_, .cons hr hrest⟩
      rw [List.map_cons, List.mapM_cons, hrow, hrows]
      rfl

theorem find_last {records : List MountRecord} (h : List.Forall₂ Mount.Faithful table records) (target : Str) :
    (records.reverse.find? (fun r => r.target = target) = none ∧ ∀ m ∈ table, m.target ≠ target) ∨
      ∃ before m after r, table = before ++ m :: after ∧ m.target = target ∧ (∀ m' ∈ after, m'.target ≠ target) ∧
        records.reverse.find? (fun r => r.target = target) = some r ∧ m.Faithful r := by
  induction h with
  | nil => exact .inl ⟨rfl, nofun⟩
  | @cons m r table records hr hrest ih =>
    rw [List.reverse_cons, List.find?_append]
    rcases ih with ⟨hnone, hall⟩ | ⟨before, m', after, r', rfl, htarget, hafter, hfind, hf⟩
    · rw [hnone, Option.none_or]
      by_cases hm : m.target = target
      · refine .inr ⟨[], m, table, r, rfl, hm, hall, ?_, hr⟩
        simp [hr.target, hm]
      · refine .inl ⟨?_, List.forall_mem_cons.2 ⟨hm, hall⟩⟩
        simp [hr.target, hm]
    · exact .inr ⟨m :: before, m', after, r', rfl, htarget, hafter, by rw [hfind]; rfl, hf⟩

/-- **When a table is read back.**  If it is, the mount at a target is the last one there. -/
theorem table_faithful_iff [StdLib] [StdLib.Trims] (table : List Mount) (h : ∀ m ∈ table, m.Wf) :
    (ReadBack table ↔ ∀ m ∈ table, m.Readable) ∧
      (ReadBack table → ∀ target : Str,
        (mountAt (.ok (printTable table)) target = .ok none ∧ ∀ m ∈ table, m.target ≠ clean target) ∨
          ∃ before m after r, table = before ++ m :: after ∧ m.target = clean target ∧
            (∀ m' ∈ after, m'.target ≠ clean target) ∧ mountAt (.ok (printTable table)) target = .ok (some r) ∧
            m.Faithful r) := by
  have hparse : ∀ records, parseMountInfo (printTable table) = .ok records ↔
      (table.map fun m => fields m.print).mapM mountRecordOf = some records := by
    intro records
    rw [parseMountInfo, parseRows_eq_ok, ← rowsOf, rowsOf_trimSpace, rowsOf_printTable h]
  constructor
  · rw [← forall₂_rows h]
    exact exists_congr fun records => and_congr_left' (hparse records)
  · rintro ⟨records, hrecords, hall⟩ target
    have hmount : mountAt (.ok (printTable table)) target =
        .ok (records.reverse.find? fun r => r.target = clean target) := by
      rw [mountAt, hrecords]
      rfl
    rw [hmount]
    rcases find_last hall (clean target) with ⟨hnone, hno⟩ | ⟨before, m, after, r, htable, htarget, hafter, hfind, hf⟩
    · exact .inl ⟨by rw [hnone], hno⟩
    · exact .inr ⟨before, m, after, r, htable, htarget, hafter, by rw [hfind], hf⟩

section run

attribute [local instance] asciiLib

/-- A filesystem in memory at the target, from this source. -/
def memoryMount (target source : Str) : Mount where
  id := 25
  parent := 1
  device := (0, 22)
  root := "/"
  target := target
  options := "rw,nosuid"
  optional := ["shared:3"]
  filesystem := "tmpfs"
  source := source
  superOptions := "rw,size=4k"

theorem memoryMount_wf {target source : Str} (h : target.head? = some 47 ∧ clean target = target) :
    (memoryMount target source).Wf where
  root := (by decide : (str "/").head? = some 47 ∧ clean "/" = "/")
  target := h
  options := (by decide : Mount.Word "rw,nosuid")
  optional := (by decide : ∀ o ∈ [str "shared:3"], Mount.Word o)
  filesystem := (by decide : Mount.Word "tmpfs")
  superOptions := (by decide +kernel :
    (str "rw,size=4k").head?.any graphic = true ∧ ∀ b ∈ str "rw,size=4k", b ≠ 32 ∧ b ≠ 9 ∧ b ≠ 10)

/-- Two mounts at a path with a blank in it, and one at another path in between: the last one is found. -/
theorem table_faithful_iff_blank :
    let table := [memoryMount "/var/lib/a b" "none", memoryMount "/c" "none", memoryMount "/var/lib/a b" "tmpfs"]
    ReadBack table ∧ ∃ r, mountAt (.ok (printTable table)) "/var/lib/a b" = .ok (some r) ∧
      (memoryMount "/var/lib/a b" "tmpfs").Faithful r := by
  intro table
  have hwf : ∀ m ∈ table, m.Wf := by
    simp only [table, List.forall_mem_cons]
    exact ⟨memoryMount_wf (by decide), memoryMount_wf (by decide), memoryMount_wf (by decide), nofun⟩
  have hread : ReadBack table := by
    refine (table_faithful_iff table hwf).1.2 ?_
    simp only [table, List.forall_mem_cons]
    exact ⟨⟨by decide, by decide, by decide, "none", "rw,size=4k", [], by decide, fun _ => Iff.rfl⟩,
      ⟨by decide, by decide, by decide, "none", "rw,size=4k", [], by decide, fun _ => Iff.rfl⟩,
      ⟨by decide, by decide, by decide, "tmpfs", "rw,size=4k", [], by decide, fun _ => Iff.rfl⟩, nofun⟩
  refine ⟨hread, ?_⟩
  rcases (table_faithful_iff table hwf).2 hread "/var/lib/a b" with
    ⟨-, hno⟩ | ⟨before, m, after, r, htable, htarget, hafter, hfound, hf⟩
  · exact absurd rfl (hno _ (.head _))
  refine ⟨r, hfound, ?_⟩
  match before with
  | [] =>
    obtain ⟨-, rfl⟩ := List.cons.inj htable
    exact absurd rfl (hafter _ (.tail _ (.head _)))
  | [_] =>
    obtain ⟨rfl, -⟩ := List.cons.inj (List.cons.inj htable).2
    exact absurd htarget (by decide)
  | [_, _] =>
    obtain ⟨rfl, -⟩ := List.cons.inj (List.cons.inj (List.cons.inj htable).2).2
    exact hf
  | _ :: _ :: _ :: rest => simp [table] at htable

/-- One mount without a source, and no row is read; a path with a carriage return, and its target is another one. -/
theorem mount_not_read :
    ((memoryMount "/a" []).Wf ∧ ∃ err, parseMountInfo (printTable [memoryMount "/b" "none", memoryMount "/a" []]) = .error err) ∧
      (memoryMount [47, 97, 13, 98] "none").Wf ∧
        mountAt (.ok (printTable [memoryMount [47, 97, 13, 98] "none"])) [47, 97, 13, 98] = .ok none := by
  refine ⟨⟨memoryMount_wf (by decide), .errorf "invalid mountinfo row %q" [.str (memoryMount "/a" []).print], ?_⟩,
    memoryMount_wf (by decide), ?_⟩
  · decide +kernel
  · decide +kernel

end run

end Distort.Csi
