import Mathlib.Data.List.Basic
import Mathlib.Data.Int.Order.Lemmas

/-!
What the code takes from its language: strings, 64-bit integers and errors.

* a Go string is a sequence of bytes (`Str`); a literal is its UTF-8 encoding;
* an `int64` is an integer, and every operation that could leave the range is wrapped by `i64`;
* an error is what the code can ask about it (`Kind`) and its text.
-/

namespace Distort.Go

/-! ### Strings -/

/-- A Go string: its bytes. -/
abbrev Str : Type := List UInt8

instance : LawfulBEq Str := List.instLawfulBEq

/-- The bytes of a literal. -/
def str (s : String) : Str := s.toList.flatMap String.utf8EncodeChar

instance : Coe String Str := ⟨str⟩

/-- What `net.ParseIP` and the predicates of `net.IP` say about an address. -/
structure IP where
  isV4 : Bool
  isGlobalUnicast : Bool
  isLoopback : Bool
  isUnspecified : Bool
  isMulticast : Bool
  isLinkLocalUnicast : Bool
  isLinkLocalMulticast : Bool

/-- The tables of the standard library: the lower-case form of a string, a form that two strings
share exactly if they are equal under simple Unicode case folding, the string without surrounding
white space, and the addresses; and the order in which a `range` visits the entries of a map. -/
class StdLib where
  toLower : Str → Str
  foldForm : Str → Str
  trimSpace : Str → Str
  parseIP : Str → Option IP
  mapOrder : {α : Type} → List α → List α
  mapOrder_perm : ∀ {α : Type} (entries : List α), (mapOrder entries).Perm entries

theorem StdLib.mem_mapOrder [StdLib] {α : Type} {entries : List α} {a : α} : a ∈ StdLib.mapOrder entries ↔ a ∈ entries :=
  (StdLib.mapOrder_perm entries).mem_iff

/-- The IPv4 address `a.b.c.d`. -/
def ipv4 (a b c d : ℕ) : IP :=
  let unspecified := a = 0 ∧ b = 0 ∧ c = 0 ∧ d = 0
  let multicast := 224 ≤ a ∧ a ≤ 239
  let linkLocal := a = 169 ∧ b = 254
  { isV4 := true
    isGlobalUnicast := ¬(unspecified ∨ a = 127 ∨ multicast ∨ linkLocal ∨ a = 255 ∧ b = 255 ∧ c = 255 ∧ d = 255)
    isLoopback := a = 127
    isUnspecified := unspecified
    isMulticast := multicast
    isLinkLocalUnicast := linkLocal
    isLinkLocalMulticast := a = 224 ∧ b = 0 ∧ c = 0 }

/-- Tables that are right for ASCII strings and for addresses in dotted decimal form; an IPv6 address is not known to
them. -/
abbrev asciiLib : StdLib where
  toLower s := s.map lower
  foldForm s := s.map lower
  trimSpace s := ((s.dropWhile blank).reverse.dropWhile blank).reverse
  parseIP s :=
    match (s.splitOn 46).map octet with
    | [some a, some b, some c, some d] => some (ipv4 a b c d)
    | _ => none
  mapOrder entries := entries
  mapOrder_perm _ := .refl _
where
  lower (c : UInt8) : UInt8 := if 65 ≤ c ∧ c ≤ 90 then c + 32 else c
  blank (c : UInt8) : Bool := c = 32 ∨ 9 ≤ c ∧ c ≤ 13
  /-- A number up to 255, without leading zeros. -/
  octet (field : Str) : Option ℕ :=
    let n := field.foldl (fun n c => 10 * n + (c.toNat - 48)) 0
    if field ≠ [] ∧ (field.all fun c => 48 ≤ c && c ≤ 57) ∧ (field.head? ≠ some 48 ∨ field.length = 1) ∧ n ≤ 255 then some n
    else none

/-- `strings.EqualFold`. -/
def equalFold [StdLib] (s t : Str) : Bool := StdLib.foldForm s == StdLib.foldForm t

/-- `strings.ToLower`. -/
def toLower [StdLib] (s : Str) : Str := StdLib.toLower s

/-- `strings.TrimSpace`. -/
def trimSpace [StdLib] (s : Str) : Str := StdLib.trimSpace s

/-- `strings.HasPrefix`. -/
def hasPrefix (s p : Str) : Bool := p.isPrefixOf s

/-- `strings.CutPrefix`. -/
def cutPrefix (s p : Str) : Str × Bool := if hasPrefix s p then (s.drop p.length, true) else (s, false)

/-- `strings.HasSuffix`. -/
def hasSuffix (s p : Str) : Bool := p.isSuffixOf s

/-- `strings.Join`. -/
def join (parts : List Str) (sep : Str) : Str := List.intercalate sep parts

/-! ### 64-bit integers -/

/-- The largest `int64`. -/
def maxInt64 : ℤ := 9223372036854775807

/-- The `int64` that an exact result wraps to. -/
def i64 (n : ℤ) : ℤ := n.bmod 18446744073709551616

theorem i64_of_range {n : ℤ} (h0 : -9223372036854775808 ≤ n) (h1 : n ≤ maxInt64) : i64 n = n := by
  unfold i64 maxInt64 at *
  rw [Int.bmod_eq_of_le] <;> omega

/-! ### Texts -/

/-- An argument of a format. -/
inductive Arg where
  | str (s : Str)
  | int (n : ℤ)

/-- The bytes that `%q` writes for one byte.  A byte from 128 on stands for itself, where `%q` escapes the runes that
are not printable and the bytes that are not UTF-8; only the texts of errors depend on it. -/
def quoteByte (b : UInt8) : Str :=
  if b = 34 then [92, 34] else if b = 92 then [92, 92]
  else if b = 7 then [92, 97] else if b = 8 then [92, 98] else if b = 12 then [92, 102]
  else if b = 10 then [92, 110] else if b = 13 then [92, 114] else if b = 9 then [92, 116]
  else if b = 11 then [92, 118]
  else if b < 32 || b = 127 then
    let hex (n : UInt8) : UInt8 := if n < 10 then 48 + n else 87 + n
    [92, 120, hex (b >>> 4), hex (b &&& 15)]
  else [b]

/-- `strconv.Quote`. -/
def quote (s : Str) : Str := [34] ++ s.flatMap quoteByte ++ [34]

/-- `strconv.Itoa`. -/
def itoa (n : ℤ) : Str := str (toString n)

def Arg.print : Arg → Str
  | .str s => s
  | .int n => itoa n

def Arg.quoted : Arg → Str
  | .str s => quote s
  | .int n => quote (itoa n)

/-- `fmt.Sprintf`, for the verbs `%s`, `%v`, `%w`, `%d` and `%q`. -/
def format : List Char → List Arg → Str
  | '%' :: 'q' :: cs, a :: as => a.quoted ++ format cs as
  | '%' :: _ :: cs, a :: as => a.print ++ format cs as
  | c :: cs, as => String.utf8EncodeChar c ++ format cs as
  | [], _ => []

def sprintf (fmt : String) (args : List Arg) : Str := format fmt.toList args

/-! ### Errors -/

/-- What the code asks about an error. -/
inductive Kind where
  | notFound | alreadyExists | conflict
  | canceled | deadlineExceeded
  | observation | deletionTimeout
  | other
  deriving DecidableEq, Repr

/-- An error: what can be asked about it, and its text. -/
structure Err where
  kind : Kind
  text : Str
  deriving DecidableEq

namespace Err

/-- `fmt.Errorf` without a wrapped error. -/
def errorf (fmt : String) (args : List Arg) : Err := ⟨.other, sprintf fmt args⟩

/-- `fmt.Errorf` with a last argument wrapped by `%w`: what can be asked about the inner error can
be asked about the outer one. -/
def wrapf (fmt : String) (args : List Arg) (e : Err) : Err := ⟨e.kind, sprintf fmt (args ++ [.str e.text])⟩

def isNotFound (e : Err) : Bool := e.kind == .notFound
def isAlreadyExists (e : Err) : Bool := e.kind == .alreadyExists
def isConflict (e : Err) : Bool := e.kind == .conflict

/-- `errors.Join` of an error that may be missing and another one. -/
def join : Option Err → Err → Err
  | none, e => e
  | some e, e' => ⟨e.kind, e.text ++ str "\n" ++ e'.text⟩

/-- `client.IgnoreNotFound`. -/
def ignoreNotFound (e : Err) : Except Err Unit := if e.isNotFound then .ok () else .error e

end Err

/-- The gRPC codes that the code returns. -/
inductive Code where
  | canceled | invalidArgument | deadlineExceeded | notFound | alreadyExists
  | failedPrecondition | aborted | internal
  deriving DecidableEq, Repr

/-- A gRPC status. -/
structure Status where
  code : Code
  text : Str
  deriving DecidableEq

/-- `status.Errorf`. -/
def Status.errorf (c : Code) (fmt : String) (args : List Arg) : Status := ⟨c, sprintf fmt args⟩

/-- `status.FromContextError`, on the error of a context that is done. -/
def Status.fromContextError (e : Err) : Status :=
  ⟨if e.kind == .canceled then .canceled else .deadlineExceeded, e.text⟩

/-! ### Operations on 64-bit integers -/

/-- A computation on 64-bit integers: the exact results of its operations, and what it comes to. -/
structure Traced (α : Type) where
  steps : List ℤ
  result : Except Err α

namespace Traced

def fail {α : Type} (err : Err) : Traced α := ⟨[], .error err⟩

/-- An operation.  What follows is given its result modulo `2 ^ 64`. -/
def op (exact : ℤ) : Traced ℤ := ⟨[exact], .ok (i64 exact)⟩

instance : Monad Traced where
  pure a := ⟨[], .ok a⟩
  bind x f := match x.result with
    | .error err => ⟨x.steps, .error err⟩
    | .ok a => ⟨x.steps ++ (f a).steps, (f a).result⟩

variable {α β : Type} {x : Traced α} {f : α → Traced β}

theorem result_bind : (x >>= f).result = x.result.bind fun a => (f a).result := by
  obtain ⟨steps, _ | a⟩ := x <;> rfl

theorem steps_subset_bind : x.steps ⊆ (x >>= f).steps := by
  obtain ⟨steps, _ | a⟩ := x
  · exact List.Subset.refl _
  · exact List.subset_append_left _ _

theorem mem_steps_bind {n : ℤ} (h : n ∈ (x >>= f).steps) : n ∈ x.steps ∨ ∃ a, x.result = .ok a ∧ n ∈ (f a).steps := by
  obtain ⟨steps, _ | a⟩ := x
  · exact .inl h
  · exact (List.mem_append.1 h).imp_right fun h => ⟨a, rfl, h⟩

end Traced

end Distort.Go
