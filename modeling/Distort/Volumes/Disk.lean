import Distort.Agent.Parted
import Distort.Lib.Extent
import Distort.Lib.Server

/-!
A disk with a partition table, and `parted` on it.

`parted` prints exactly the partitions of the table and, when asked, the maximal ranges that they leave free, one line
each and in any order; it makes a partition exactly where it is told to, with the lowest number that is not used.  Any
command may fail before or after its effect.

* `Slot`, `Drive`, `Table` — a partition with the size that was asked for, the disk, and what is on it;
* `render`, `parse_render` — what is printed, and that it is read back;
* `serve` — the commands.
-/

namespace Distort.Volumes

open Go Lib Agent Agent.Parted

/-! ### The disk -/

/-- A partition of the disk, and the size of the request that it was made for. -/
structure Slot where
  number : ℤ
  span : Span
  name : Str
  requested : ℤ
  deriving DecidableEq

def Slot.partition (s : Slot) : Partition := ⟨s.number, s.span.first, s.span.last, s.name⟩

/-- The device, and the bytes of it that partitions may use. -/
structure Drive where
  path : Str
  canonical : Canonical path
  oneLine : (10 : UInt8) ∉ path
  first : ℤ
  last : ℤ
  first_nonneg : 0 ≤ first
  last_le : last ≤ maxInt64

/-- The partition table, if there is one. -/
abbrev Table : Type := Option (List Slot)

variable (drive : Drive)

/-- What the partitions leave free. -/
def Drive.free (slots : List Slot) : List Extent :=
  (freeSpans drive.first drive.last (slots.map Slot.span)).map fun g => ⟨g.first, g.last⟩

/-! ### What is printed -/

/-- A line about a partition, with its file system and flags, or about free space. -/
inductive Row where
  | slot (s : Slot) (fileSystem flags : Str)
  | free (e : Extent)

def bytes (n : ℤ) : Str := itoa n ++ str "B"

def Row.fields : Row → List Str
  | .slot s fileSystem flags =>
    [itoa s.number, bytes s.span.first, bytes s.span.last, bytes s.span.length, fileSystem, s.name, flags]
  | .free e => [str "1", bytes e.start, bytes e.stop, bytes (e.stop - e.start + 1), str "free"]

def Row.line (r : Row) : Str := join r.fields ":" ++ str ";"

/-- What a line can hold in one field. -/
def fieldText (s : Str) : Bool := !s.contains 58 && !s.contains 10

/-- What is printed besides the table can be told from it. -/
def Row.fine : Row → Bool
  | .slot s fileSystem flags => fieldText s.name && fieldText fileSystem && fieldText flags && flags.getLast?.all graphic
  | .free _ => true

def Row.slot? : Row → Option Slot
  | .slot s _ _ => some s
  | .free _ => none

def Row.extent? : Row → Option Extent
  | .slot _ _ _ => none
  | .free e => some e

/-- The whole output: the unit, the device, and the lines of the table. -/
def render (path model : Str) (rows : List Row) : Str :=
  join ([str "BYT;", path ++ str ":" ++ model ++ str ":;"] ++ rows.map Row.line ++ [[]]) "\n"

/-- Numbers that `parted` can print and the code can read. -/
def Row.inRange : Row → Prop
  | .slot s _ _ => 1 ≤ s.number ∧ s.number ≤ maxInt64 ∧ 0 ≤ s.span.first ∧ s.span.first ≤ s.span.last ∧ s.span.last ≤ maxInt64
  | .free e => 0 ≤ e.start ∧ e.start ≤ e.stop ∧ e.stop ≤ maxInt64

section parse

variable [StdLib] [StdLib.Lawful]

section

omit [StdLib] [StdLib.Lawful]

theorem digit_ne {b : UInt8} (h : digit b = true) : b ≠ 58 ∧ b ≠ 10 ∧ b ≠ 47 ∧ b ≠ 66 ∧ graphic b = true := by
  refine ⟨?_, ?_, ?_, ?_, ?_⟩
  · rintro rfl
    cases h
  · rintro rfl
    cases h
  · rintro rfl
    cases h
  · rintro rfl
    cases h
  · simp only [digit, decide_eq_true_eq, UInt8.le_iff_toNat_le] at h
    simp only [graphic, decide_eq_true_eq, UInt8.le_iff_toNat_le]
    change 48 ≤ b.toNat ∧ b.toNat ≤ 57 at h
    change 33 ≤ b.toNat ∧ b.toNat ≤ 126
    omega

theorem itoa_digits {n : ℤ} (h : 0 ≤ n) : ∀ b ∈ itoa n, digit b = true := by
  obtain ⟨m, rfl⟩ := Int.eq_ofNat_of_zero_le h
  exact fun b hb => digit_of_mem_itoa hb

theorem bytes_plain {n : ℤ} (h : 0 ≤ n) {c : UInt8} (hc : c = 58 ∨ c = 10) : c ∉ bytes n := by
  intro hmem
  rcases List.mem_append.1 hmem with hmem | hmem
  · obtain ⟨h58, h10, -⟩ := digit_ne (itoa_digits h c hmem)
    exact hc.elim h58 h10
  · have hB : c = 66 := List.mem_singleton.1 hmem
    rcases hc with rfl | rfl <;> cases hB

theorem parseByteField_bytes {n : ℤ} (h0 : 0 ≤ n) (h1 : n ≤ maxInt64) : parseByteField (bytes n) = some n := by
  rw [parseByteField, bytes, trimSuffix_append, parseInt_itoa h0 h1]

theorem head?_join {a : Str} (ha : a ≠ []) (l : List Str) (sep : Str) : (join (a :: l) sep).head? = a.head? := by
  cases l with
  | nil => simp [join]
  | cons b l =>
    obtain ⟨c, a, rfl⟩ := List.exists_cons_of_ne_nil ha
    rw [join_cons _ (List.cons_ne_nil _ _)]
    rfl

theorem getLast?_join {l : List Str} (hl : l ≠ []) (z : Str) :
    (join (l ++ [z]) ":").getLast? = some (z.getLast?.getD 58) := by
  induction l with
  | nil => exact absurd rfl hl
  | cons a l ih =>
    rw [List.cons_append, join_cons _ (by simp), List.getLast?_append]
    cases l with
    | nil =>
      have hjoin : join ([] ++ [z]) ":" = z := by simp [join]
      have hsep : (a ++ str ":").getLast? = some 58 := by
        rw [List.getLast?_append]
        rfl
      rw [hjoin, hsep]
      cases z.getLast? <;> rfl
    | cons b l =>
      rw [ih (List.cons_ne_nil _ _)]
      rfl

end

theorem trimSpace_line {a : Str} {l : List Str} {z : Str} (ha : a ≠ []) (hdigit : ∀ b ∈ a, digit b = true)
    (hz : z.getLast?.all graphic = true) :
    trimSpace (trimSuffix (join (a :: l ++ [z]) ":" ++ str ";") ";") = join (a :: l ++ [z]) ":" ∧
      ¬(join (a :: l ++ [z]) ":" = [] ∨ join (a :: l ++ [z]) ":" = str "BYT" ∨
        hasPrefix (join (a :: l ++ [z]) ":") "/" = true) := by
  obtain ⟨c, a', rfl⟩ := List.exists_cons_of_ne_nil ha
  have hc := digit_ne (hdigit c List.mem_cons_self)
  have hhead : (join ((c :: a') :: l ++ [z]) ":").head? = some c := head?_join ha (l ++ [z]) ":"
  have hlast : (join ((c :: a') :: l ++ [z]) ":").getLast? = some (z.getLast?.getD 58) :=
    getLast?_join (List.cons_ne_nil _ _) z
  refine ⟨?_, ?_⟩
  · rw [trimSuffix_append]
    refine trimSpace_framed ?_
    rw [framed, hhead, hlast, Bool.and_eq_true]
    refine ⟨hc.2.2.2.2, ?_⟩
    cases hz' : z.getLast? with
    | none => decide
    | some b =>
      rw [hz'] at hz
      exact hz
  · generalize join ((c :: a') :: l ++ [z]) ":" = line at hhead
    rintro (rfl | rfl | h)
    · cases hhead
    · exact hc.2.2.2.1 (Option.some.inj hhead).symm
    · obtain ⟨rest, hrest⟩ := List.isPrefixOf_iff_prefix.1 h
      rw [← hrest] at hhead
      exact hc.2.2.1 (Option.some.inj hhead).symm

section

omit [StdLib] [StdLib.Lawful]

theorem itoa_ne_nil' {n : ℤ} (h : 0 ≤ n) : itoa n ≠ [] := by
  obtain ⟨m, rfl⟩ := Int.eq_ofNat_of_zero_le h
  exact itoa_ne_nil m

theorem fieldText_iff {s : Str} : fieldText s = true ↔ (58 : UInt8) ∉ s ∧ (10 : UInt8) ∉ s := by
  simp [fieldText]

theorem fields_plain {r : Row} (hfine : r.fine = true) (hrange : r.inRange) {c : UInt8} (hc : c = 58 ∨ c = 10) :
    ∀ f ∈ r.fields, c ∉ f := by
  cases r with
  | slot s fileSystem flags =>
    simp only [Row.fine, Bool.and_eq_true, fieldText_iff] at hfine
    obtain ⟨⟨⟨hname, hfs⟩, hflags⟩, -⟩ := hfine
    obtain ⟨hn, -, hfirst, hle, -⟩ := hrange
    have htext : ∀ t : Str, (58 : UInt8) ∉ t ∧ (10 : UInt8) ∉ t → c ∉ t := by
      rintro t ⟨h58, h10⟩
      rcases hc with rfl | rfl
      · exact h58
      · exact h10
    have hnumber : c ∉ itoa s.number := by
      intro hmem
      obtain ⟨h58, h10, -⟩ := digit_ne (itoa_digits (by omega) c hmem)
      exact hc.elim h58 h10
    intro f hf
    simp only [Row.fields, List.mem_cons, List.not_mem_nil, or_false] at hf
    rcases hf with rfl | rfl | rfl | rfl | rfl | rfl | rfl
    · exact hnumber
    · exact bytes_plain hfirst hc
    · exact bytes_plain (by omega) hc
    · exact bytes_plain (by rw [Span.length]; omega) hc
    · exact htext _ hfs
    · exact htext _ hname
    · exact htext _ hflags
  | free e =>
    obtain ⟨hstart, hle, -⟩ := hrange
    intro f hf
    simp only [Row.fields, List.mem_cons, List.not_mem_nil, or_false] at hf
    rcases hf with rfl | rfl | rfl | rfl | rfl
    · rcases hc with rfl | rfl <;> decide
    · exact bytes_plain hstart hc
    · exact bytes_plain (by omega) hc
    · exact bytes_plain (by omega) hc
    · rcases hc with rfl | rfl <;> decide

end

/-- What a line says. -/
def Row.meaning : Row → Partition ⊕ Extent
  | .slot s _ _ => .inl s.partition
  | .free e => .inr e

/-- **A line is read back.** -/
theorem parseLine_line {r : Row} (hfine : r.fine = true) (hrange : r.inRange) :
    parseLine r.line = .ok (some r.meaning) := by
  have hsplit : (join r.fields ":").splitOn 58 = r.fields := by
    refine List.splitOn_intercalate 58 (fields_plain hfine hrange (.inl rfl)) ?_
    cases r <;> exact List.cons_ne_nil _ _
  cases r with
  | slot s fileSystem flags =>
    obtain ⟨hn, hnmax, hfirst, hle, hlast⟩ := hrange
    simp only [Row.fine, Bool.and_eq_true] at hfine
    obtain ⟨htrim, hskip⟩ := trimSpace_line (l := [bytes s.span.first, bytes s.span.last, bytes s.span.length, fileSystem,
      s.name]) (itoa_ne_nil' (n := s.number) (by omega)) (itoa_digits (by omega)) hfine.2
    have hline : (Row.slot s fileSystem flags).line = join (itoa s.number :: [bytes s.span.first, bytes s.span.last,
      bytes s.span.length, fileSystem, s.name] ++ [flags]) ":" ++ str ";" := rfl
    unfold parseLine
    rw [hline, htrim, if_neg hskip]
    simp only [Row.fields] at hsplit
    simp only [List.cons_append, List.nil_append, hsplit, parseInt_itoa (n := s.number) (by omega) hnmax,
      parseByteField_bytes hfirst (by omega), parseByteField_bytes (n := s.span.last) (by omega) hlast,
      if_neg (show ¬ s.number < 1 by omega)]
    rfl
  | free e =>
    obtain ⟨hstart, hle, hstop⟩ := hrange
    obtain ⟨htrim, hskip⟩ := trimSpace_line (a := str "1") (l := [bytes e.start, bytes e.stop, bytes (e.stop - e.start + 1)])
      (z := str "free") (by decide) (by decide +kernel) (by decide)
    have hline : (Row.free e).line = join (str "1" :: [bytes e.start, bytes e.stop, bytes (e.stop - e.start + 1)] ++
      [str "free"]) ":" ++ str ";" := rfl
    unfold parseLine
    rw [hline, htrim, if_neg hskip]
    simp only [Row.fields] at hsplit
    simp only [List.cons_append, List.nil_append, hsplit, if_true, parseByteField_bytes hstart (by omega),
      parseByteField_bytes (n := e.stop) (by omega) hstop]
    rfl

theorem parseLine_unit : parseLine "BYT;" = .ok none := by
  have htrim : trimSpace (trimSuffix (str "BYT;") ";") = str "BYT" := by
    have happ : str "BYT;" = str "BYT" ++ str ";" := rfl
    rw [happ, trimSuffix_append]
    exact trimSpace_framed (by decide)
  unfold parseLine
  rw [htrim, if_pos (.inr (.inl rfl))]

theorem parseLine_blank : parseLine [] = .ok none := by
  have htrim : trimSpace (trimSuffix [] ";") = [] := trimSpace_framed (s := []) rfl
  unfold parseLine
  rw [htrim, if_pos (.inl rfl)]

theorem parseLine_device {path : Str} (h : Canonical path) (model : Str) :
    parseLine (path ++ str ":" ++ model ++ str ":;") = .ok none := by
  obtain ⟨elements, -, -, rfl⟩ := h
  have htrim : trimSpace (trimSuffix (str "/" ++ join elements "/" ++ str ":" ++ model ++ str ":;") ";") =
      str "/" ++ join elements "/" ++ str ":" ++ model ++ str ":" := by
    have happ : ∀ t : Str, t ++ str ":;" = t ++ str ":" ++ str ";" := fun t => (List.append_assoc t _ _).symm
    rw [happ, trimSuffix_append]
    refine trimSpace_framed ?_
    have hlast : (str "/" ++ join elements "/" ++ str ":" ++ model ++ str ":").getLast? = some 58 := by
      rw [List.getLast?_append]
      rfl
    have hhead : (str "/" ++ join elements "/" ++ str ":" ++ model ++ str ":").head? = some 47 := rfl
    rw [framed, hhead, hlast]
    decide
  unfold parseLine
  rw [htrim, if_pos (.inr (.inr rfl))]

/-- The partitions and the free ranges of some rows. -/
def Row.table (rows : List Row) : List Partition × List Extent :=
  ((rows.filterMap Row.slot?).map Slot.partition, rows.filterMap Row.extent?)

theorem parseLines_rows {rows : List Row} {rest : List Str} (hfine : ∀ r ∈ rows, r.fine = true) (hrange : ∀ r ∈ rows, r.inRange)
    (hrest : parseLines rest = .ok ([], [])) : parseLines (rows.map Row.line ++ rest) = .ok (Row.table rows) := by
  induction rows with
  | nil => exact hrest
  | cons r rows ih =>
    have ih := ih (fun r hr => hfine r (List.mem_cons_of_mem _ hr)) fun r hr => hrange r (List.mem_cons_of_mem _ hr)
    rw [List.map_cons, List.cons_append, parseLines,
      parseLine_line (hfine r List.mem_cons_self) (hrange r List.mem_cons_self)]
    cases r with
    | slot s fileSystem flags =>
      simp only [Row.meaning, ih]
      rfl
    | free e =>
      simp only [Row.meaning, ih]
      rfl

/-- **What is printed is read back.** -/
theorem parse_render {path model : Str} {rows : List Row} (hpath : Canonical path) (hline : (10 : UInt8) ∉ path)
    (hmodel : (10 : UInt8) ∉ model) (hfine : ∀ r ∈ rows, r.fine = true) (hrange : ∀ r ∈ rows, r.inRange) :
    parsePartedTable (render path model rows) = .ok (Row.table rows) := by
  have hsplit : (render path model rows).splitOn 10 =
      [str "BYT;", path ++ str ":" ++ model ++ str ":;"] ++ rows.map Row.line ++ [[]] := by
    refine List.splitOn_intercalate 10 (fun l hl => ?_) (by simp)
    simp only [List.cons_append, List.nil_append, List.mem_cons, List.mem_append, List.not_mem_nil, or_false,
      List.mem_map] at hl
    rcases hl with rfl | rfl | ⟨r, hr, rfl⟩ | rfl
    · decide
    · have hcolon : (10 : UInt8) ∉ str ":" := by decide
      have hend : (10 : UInt8) ∉ str ":;" := by decide
      simp only [List.mem_append, not_or]
      exact ⟨⟨⟨hline, hcolon⟩, hmodel⟩, hend⟩
    · have hend : (10 : UInt8) ∉ str ";" := by decide
      rw [Row.line, List.mem_append, not_or]
      exact ⟨not_mem_join (by decide) (fields_plain (hfine r hr) (hrange r hr) (.inr rfl)), hend⟩
    · exact List.not_mem_nil
  have hblank : parseLines [[]] = .ok ([], []) := by
    rw [parseLines, parseLine_blank]
    rfl
  rw [parsePartedTable, hsplit, List.append_assoc, List.cons_append, parseLines, parseLine_unit, List.cons_append, parseLines,
    parseLine_device hpath]
  exact parseLines_rows hfine hrange hblank

end parse

/-! ### The commands -/

/-- What `parted` is told to do. -/
inductive Command where
  | print (free : Bool)
  | mklabel
  | mkpart (name : Str) (start stop : ℤ)
  | rm (number : ℤ)

def printArgs (path : Str) (free : Bool) : List Str :=
  [str "-m", str "-s", path, str "unit", str "B", str "print"] ++ (if free then [str "free"] else [])

def mklabelArgs (path : Str) : List Str := [str "-s", path, str "mklabel", str "gpt"]

def mkpartArgs (path name : Str) (start stop : ℤ) : List Str :=
  [str "-s", str "-a", str "optimal", path, str "mkpart", name, bytes start, bytes stop]

def rmArgs (path : Str) (number : ℤ) : List Str := [str "-s", path, str "rm", itoa number]

/-- The command that some arguments are. -/
def Command.of (path : Str) (args : List Str) : Option Command :=
  if args = printArgs path false then some (.print false)
  else if args = printArgs path true then some (.print true)
  else if args = mklabelArgs path then some .mklabel
  else
    match args with
    | [s, device, verb, number] =>
      if s = str "-s" ∧ device = path ∧ verb = str "rm" then (parseInt number).map .rm else none
    | [s, a, optimal, device, verb, name, start, stop] =>
      if s = str "-s" ∧ a = str "-a" ∧ optimal = str "optimal" ∧ device = path ∧ verb = str "mkpart" then
        (parseByteField start).bind fun start => (parseByteField stop).map fun stop => .mkpart name start stop
      else none
    | _ => none

/-- What becomes of a command: it prints something when it fails. -/
inductive Outcome where
  | ok
  | fail (out : Str) (err : Err)
  /-- It takes effect, and then fails. -/
  | lost (out : Str) (err : Err)

structure Choice where
  outcome : Outcome := .ok
  /-- The lines of the table, if it is printed. -/
  rows : List Row := []
  model : Str := []
  /-- Whether a device file is there. -/
  seen : Except Err Unit := .ok ()
  tick : Tick := .timer

/-- The least number from one on that is not used. -/
def lowestUnused (used : List ℤ) : ℤ := lowestFrom used used.length 1

/-- The rows list exactly the table. -/
def lists (rows : List Row) (slots : List Slot) (free : List Extent) : Bool :=
  rows.all Row.fine && (rows.filterMap Row.slot?).isPerm slots && (rows.filterMap Row.extent?).isPerm free

/-- How `parted` refuses a command. -/
def refused : Str × Err := (str "Error: Partition doesn't exist.", ⟨.other, "exit status 1"⟩)

/-- How it refuses any command but one on a disk without a table. -/
def unlabelled : Str × Err := (str "Error: unrecognised disk label", ⟨.other, "exit status 1"⟩)

/-- A command that does not fail by itself; `requested` is the size of the request that is served. -/
def perform (requested : ℤ) (ch : Choice) : Command → Table → Option (Except (Str × Err) Str × Table)
  | .print free, some slots =>
    if lists ch.rows slots (if free then drive.free slots else []) ∧ (10 : UInt8) ∉ ch.model then
      some (.ok (render drive.path ch.model ch.rows), some slots)
    else none
  | .mklabel, _ => some (.ok [], some [])
  | .mkpart name start stop, some slots =>
    some (.ok [], some (slots ++ [⟨lowestUnused (slots.map Slot.number), ⟨start, stop⟩, name, requested⟩]))
  | .rm number, some slots =>
    if number ∈ slots.map Slot.number then some (.ok [], some (slots.filter fun s => s.number ≠ number))
    else some (.error refused, some slots)
  | _, none => some (.error unlabelled, none)

/-! ### The server -/

section server

variable [StdLib]

/-- Only a disk without a table is said to have none. -/
def mayFail (args : List Str) (table : Table) (out : Str) (err : Err) : Bool :=
  table.isNone || !isUnrecognizedDiskLabel (.command args (trimSpace out) err)

/-- A command that may fail by itself. -/
def fated (ch : Choice) (args : List Str) (table : Table) (served : Except (Str × Err) Str × Table) :
    Option (Except (Str × Err) Str × Table) :=
  match ch.outcome with
  | .ok => some served
  | .fail out err => if mayFail args table out err then some (.error (out, err), table) else none
  | .lost out err => if mayFail args table out err then some (.error (out, err), served.2) else none

/-- The calls of the volume manager on its device. -/
def serve (requested : ℤ) (ch : Choice) : (c : Call) → Table → Option (c.Resp × Table)
  | .disk (.parted args), table =>
    (Command.of drive.path args).bind fun cmd => (perform drive requested ch cmd table).bind (fated ch args table)
  | .disk (.wipefs path), table => if path = drive.path then fated ch [] table (.ok [], none) else none
  | .disk (.stat _), table => some (ch.seen, table)
  | .proc .select, table => some (ch.tick, table)
  | .proc (.lock _), table => some ((), table)
  | .proc (.unlock _), table => some ((), table)
  | _, _ => none

def server (requested : ℤ) : Server Call Call.Resp Table := .of (serve drive requested)

end server

end Distort.Volumes
