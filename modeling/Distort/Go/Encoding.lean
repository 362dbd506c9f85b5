import Mathlib.Data.List.Sort
import Distort.Go.Basic
import Distort.Lib.PrefixCode

/-!
`crypto/sha256`, `encoding/binary`, `encoding/hex`, `encoding/json` and `encoding/base64`, on byte lists.

No proof depends on the value of a digest: what is used is that it is a function of its input and
has 32 bytes.
-/

namespace Distort.Go

/-- `binary.BigEndian.PutUint64`. -/
def beUInt64 (n : ℕ) : List UInt8 :=
  [56, 48, 40, 32, 24, 16, 8, 0].map fun s => (n / 2 ^ s).toUInt8

theorem beUInt64_prefixCode : Lib.PrefixCode (· < 2 ^ 64) beUInt64 := by
  refine .of_length (n := 8) (fun n _ => rfl) fun n m hn hm h => ?_
  simp only [beUInt64, List.map_cons, List.map_nil, List.cons.injEq, and_true, ← UInt8.toNat_inj,
    Nat.toUInt8_eq, UInt8.toNat_ofNat'] at h
  obtain ⟨h7, h6, h5, h4, h3, h2, h1, h0⟩ := h
  -- the quotients agree from the top byte down
  have hnext : ∀ {s}, n / 2 ^ (s + 8) = m / 2 ^ (s + 8) → n / 2 ^ s % 2 ^ 8 = m / 2 ^ s % 2 ^ 8 →
      n / 2 ^ s = m / 2 ^ s := by
    intro s hdiv hmod
    rw [pow_add, ← Nat.div_div_eq_div_mul, ← Nat.div_div_eq_div_mul] at hdiv
    omega
  have h8 : n / 2 ^ (56 + 8) = m / 2 ^ (56 + 8) := by rw [Nat.div_eq_of_lt hn, Nat.div_eq_of_lt hm]
  simpa using hnext (hnext (hnext (hnext (hnext (hnext (hnext (hnext h8 h7) h6) h5) h4) h3) h2) h1) h0

/-! ### SHA-256 -/

namespace Sha256

def roundConstants : List UInt32 :=
  [0x428a2f98, 0x71374491, 0xb5c0fbcf, 0xe9b5dba5, 0x3956c25b, 0x59f111f1, 0x923f82a4, 0xab1c5ed5,
   0xd807aa98, 0x12835b01, 0x243185be, 0x550c7dc3, 0x72be5d74, 0x80deb1fe, 0x9bdc06a7, 0xc19bf174,
   0xe49b69c1, 0xefbe4786, 0x0fc19dc6, 0x240ca1cc, 0x2de92c6f, 0x4a7484aa, 0x5cb0a9dc, 0x76f988da,
   0x983e5152, 0xa831c66d, 0xb00327c8, 0xbf597fc7, 0xc6e00bf3, 0xd5a79147, 0x06ca6351, 0x14292967,
   0x27b70a85, 0x2e1b2138, 0x4d2c6dfc, 0x53380d13, 0x650a7354, 0x766a0abb, 0x81c2c92e, 0x92722c85,
   0xa2bfe8a1, 0xa81a664b, 0xc24b8b70, 0xc76c51a3, 0xd192e819, 0xd6990624, 0xf40e3585, 0x106aa070,
   0x19a4c116, 0x1e376c08, 0x2748774c, 0x34b0bcb5, 0x391c0cb3, 0x4ed8aa4a, 0x5b9cca4f, 0x682e6ff3,
   0x748f82ee, 0x78a5636f, 0x84c87814, 0x8cc70208, 0x90befffa, 0xa4506ceb, 0xbef9a3f7, 0xc67178f2]

/-- The eight working words. -/
structure Words where
  (a b c d e f g h : UInt32)

def initial : Words :=
  ⟨0x6a09e667, 0xbb67ae85, 0x3c6ef372, 0xa54ff53a, 0x510e527f, 0x9b05688c, 0x1f83d9ab, 0x5be0cd19⟩

def rotr (x : UInt32) (n : UInt32) : UInt32 := (x >>> n) ||| (x <<< (32 - n))

def be32 (x : UInt32) : List UInt8 :=
  [(x >>> 24).toUInt8, (x >>> 16).toUInt8, (x >>> 8).toUInt8, x.toUInt8]

/-- The padded message. -/
def pad (m : List UInt8) : List UInt8 :=
  m ++ [0x80] ++ List.replicate ((119 - m.length % 64) % 64) 0 ++ beUInt64 (8 * m.length)

/-- The words of a block, big-endian. -/
def wordsOf : List UInt8 → List UInt32
  | p :: q :: r :: s :: rest =>
    (p.toUInt32 <<< 24 ||| q.toUInt32 <<< 16 ||| r.toUInt32 <<< 8 ||| s.toUInt32) :: wordsOf rest
  | _ => []

/-- The message schedule, extended by `n` words; the latest word is first. -/
def extend : ℕ → List UInt32 → List UInt32
  | 0, ws => ws
  | n + 1, ws =>
    let w15 := ws.getD 14 0
    let w2 := ws.getD 1 0
    let s0 := rotr w15 7 ^^^ rotr w15 18 ^^^ (w15 >>> 3)
    let s1 := rotr w2 17 ^^^ rotr w2 19 ^^^ (w2 >>> 10)
    extend n ((ws.getD 15 0 + s0 + ws.getD 6 0 + s1) :: ws)

/-- One round, with the schedule word and the constant of the round. -/
def round (v : Words) (kw : UInt32 × UInt32) : Words :=
  let s1 := rotr v.e 6 ^^^ rotr v.e 11 ^^^ rotr v.e 25
  let ch := (v.e &&& v.f) ^^^ (~~~v.e &&& v.g)
  let t1 := v.h + s1 + ch + kw.1 + kw.2
  let s0 := rotr v.a 2 ^^^ rotr v.a 13 ^^^ rotr v.a 22
  let maj := (v.a &&& v.b) ^^^ (v.a &&& v.c) ^^^ (v.b &&& v.c)
  ⟨t1 + (s0 + maj), v.a, v.b, v.c, v.d + t1, v.e, v.f, v.g⟩

def block (v : Words) (m : List UInt8) : Words :=
  let ws := (extend 48 (wordsOf m).reverse).reverse
  let u := (roundConstants.zip ws).foldl round v
  ⟨v.a + u.a, v.b + u.b, v.c + u.c, v.d + u.d, v.e + u.e, v.f + u.f, v.g + u.g, v.h + u.h⟩

/-- The blocks of a padded message, at most `n` of them. -/
def blocks : ℕ → Words → List UInt8 → Words
  | 0, v, _ => v
  | n + 1, v, m => if m = [] then v else blocks n (block v (m.take 64)) (m.drop 64)

def digest (v : Words) : List UInt8 :=
  be32 v.a ++ be32 v.b ++ be32 v.c ++ be32 v.d ++ be32 v.e ++ be32 v.f ++ be32 v.g ++ be32 v.h

end Sha256

/-- `sha256.Sum256`. -/
def sha256 (m : List UInt8) : List UInt8 :=
  let p := Sha256.pad m
  Sha256.digest (Sha256.blocks (p.length / 64) Sha256.initial p)

variable (m : List UInt8)

theorem sha256_length : (sha256 m).length = 32 := by
  simp [sha256, Sha256.digest, Sha256.be32]

/-! ### Hexadecimal -/

def hexDigit (n : UInt8) : UInt8 := if n < 10 then 48 + n else 87 + n

/-- `hex.EncodeToString`. -/
def hexEncode (m : List UInt8) : Str := m.flatMap fun (b : UInt8) => [hexDigit (b >>> 4), hexDigit (b &&& 15)]

theorem hexEncode_length : (hexEncode m).length = 2 * m.length := by
  induction m with
  | nil => rfl
  | cons b m ih => simp [hexEncode, List.flatMap_cons] at ih ⊢; omega

/-- The value of a digit. -/
def hexValue (c : UInt8) : UInt8 := if c < 58 then c - 48 else c - 87

/-- The byte that two digits stand for. -/
def hexByte (hi lo : UInt8) : UInt8 := hexValue hi <<< 4 ||| hexValue lo

theorem hexByte_digits (b : UInt8) : hexByte (hexDigit (b >>> 4)) (hexDigit (b &&& 15)) = b := by
  have hall : ∀ n < 256, hexByte (hexDigit (UInt8.ofNat n >>> 4)) (hexDigit (UInt8.ofNat n &&& 15)) = UInt8.ofNat n := by
    decide +kernel
  simpa using hall b.toNat b.toNat_lt

theorem hexEncode_inj {m m' : List UInt8} (h : hexEncode m = hexEncode m') : m = m' := by
  have hcode : Lib.PrefixCode (fun _ => True) fun b : UInt8 => [hexDigit (b >>> 4), hexDigit (b &&& 15)] := by
    refine .of_read (fun s => s[0]?.bind fun hi => s[1]?.map fun lo => (hexByte hi lo, s.drop 2)) fun b _ x => ?_
    simp [hexByte_digits]
  exact hcode.flatMap_inj (fun _ _ => List.cons_ne_nil _ _) (fun _ _ => trivial) (fun _ _ => trivial) h

/-! ### JSON -/

/-- The bytes that `encoding/json` writes for one byte of a string.  A byte of a longer UTF-8 sequence stands
for itself. -/
def jsonByte (b : UInt8) : Str :=
  if b = 34 || b = 92 then [92, b]
  else if b = 8 then [92, 98] else if b = 12 then [92, 102] else if b = 10 then [92, 110]
  else if b = 13 then [92, 114] else if b = 9 then [92, 116]
  else if b < 32 || b = 38 || b = 60 || b = 62 then [92, 117, 48, 48, hexDigit (b >>> 4), hexDigit (b &&& 15)]
  else [b]

def jsonString (s : Str) : Str := [34] ++ s.flatMap jsonByte ++ [34]

/-- The byte at the front of the text of a string, and the text behind it. -/
def jsonRead : Str → Option (UInt8 × Str)
  | 92 :: 117 :: _ :: _ :: hi :: lo :: x => some (hexByte hi lo, x)
  | 92 :: c :: x =>
    some (if c = 98 then 8 else if c = 102 then 12 else if c = 110 then 10 else if c = 114 then 13
      else if c = 116 then 9 else c, x)
  | c :: x => some (c, x)
  | [] => none

theorem jsonRead_jsonByte (b : UInt8) (x : Str) : jsonRead (jsonByte b ++ x) = some (b, x) := by
  unfold jsonByte
  split
  · rename_i h
    simp only [Bool.or_eq_true, decide_eq_true_eq] at h
    rcases h with rfl | rfl <;> rfl
  split
  · rename_i h; subst h; rfl
  split
  · rename_i h; subst h; rfl
  split
  · rename_i h; subst h; rfl
  split
  · rename_i h; subst h; rfl
  split
  · rename_i h; subst h; rfl
  split
  · simp only [List.cons_append, List.nil_append, jsonRead, hexByte_digits]
  rename_i hquote _ _ _ _ _ _
  simp only [Bool.or_eq_true, decide_eq_true_eq, not_or] at hquote
  unfold jsonRead
  simp [hquote.2]

/-- **A string is read off the front of a document.** -/
theorem jsonString_prefixCode : Lib.PrefixCode (fun _ => True) jsonString := by
  have hbyte : Lib.PrefixCode (fun _ => True) jsonByte := Lib.PrefixCode.of_read jsonRead fun b _ x => jsonRead_jsonByte b x
  have hmark : ∀ b : UInt8, ∃ c w, jsonByte b = c :: w ∧ c ≠ 34 := by
    intro b
    unfold jsonByte
    split_ifs with hquote
    any_goals exact ⟨92, _, rfl, by decide⟩
    refine ⟨b, [], rfl, ?_⟩
    simp only [Bool.or_eq_true, decide_eq_true_eq, not_or] at hquote
    exact hquote.1
  refine ⟨fun {s t} _ _ {x y} h => ?_⟩
  simp only [jsonString, List.cons_append, List.nil_append, List.cons.injEq, true_and] at h
  exact (hbyte.terminated fun b _ => hmark b).split (fun _ _ => trivial) (fun _ _ => trivial) h

/-- An object with the given members, whose values are encoded already. -/
def jsonObject (members : List (Str × Str)) : Str :=
  [123] ++ join (members.map fun m => jsonString m.1 ++ [58] ++ m.2) "," ++ [125]

/-- A map of strings, in the order of its keys. -/
def jsonMap (m : List (Str × Str)) : Str :=
  jsonObject ((m.insertionSort fun a b => a.1 ≤ b.1).map fun kv => (kv.1, jsonString kv.2))

/-! ### Base64, URL alphabet without padding -/

def base64Alphabet : Str := "ABCDEFGHIJKLMNOPQRSTUVWXYZabcdefghijklmnopqrstuvwxyz0123456789-_"

def base64Digit (n : ℕ) : UInt8 := base64Alphabet.getD n 0

def base64Value (c : UInt8) : Option ℕ := base64Alphabet.findIdx? (· == c)

/-- `base64.RawURLEncoding.EncodeToString`. -/
def base64Encode : List UInt8 → Str
  | a :: b :: c :: rest =>
    let n := a.toNat * 65536 + b.toNat * 256 + c.toNat
    [base64Digit (n / 262144), base64Digit (n / 4096 % 64), base64Digit (n / 64 % 64), base64Digit (n % 64)] ++
      base64Encode rest
  | [a, b] =>
    let n := a.toNat * 65536 + b.toNat * 256
    [base64Digit (n / 262144), base64Digit (n / 4096 % 64), base64Digit (n / 64 % 64)]
  | [a] =>
    let n := a.toNat * 65536
    [base64Digit (n / 262144), base64Digit (n / 4096 % 64)]
  | [] => []

/-- The bytes of a sequence of digit values.  The bits that are left over are dropped. -/
def base64Bytes : List ℕ → Option (List UInt8)
  | p :: q :: r :: s :: rest =>
    let n := p * 262144 + q * 4096 + r * 64 + s
    (base64Bytes rest).map ([(n / 65536).toUInt8, (n / 256).toUInt8, n.toUInt8] ++ ·)
  | [p, q, r] =>
    let n := p * 262144 + q * 4096 + r * 64
    some [(n / 65536).toUInt8, (n / 256).toUInt8]
  | [p, q] => some [((p * 262144 + q * 4096) / 65536).toUInt8]
  | [_] => none
  | [] => some []

/-- `base64.RawURLEncoding.DecodeString`: line breaks are skipped. -/
def base64Decode (s : Str) : Option (List UInt8) :=
  ((s.filter fun c => c ≠ 10 ∧ c ≠ 13).mapM base64Value).bind base64Bytes

/-! ### The encoding is read back -/

theorem base64Value_digit : ∀ {n : ℕ}, n < 64 → base64Value (base64Digit n) = some n := by decide

theorem base64Digit_plain : ∀ {n : ℕ}, n < 64 →
    base64Digit n ≠ 10 ∧ base64Digit n ≠ 13 ∧ base64Digit n ≠ 46 := by
  intro n hn
  -- none of the three has a value
  have hne : ∀ c, base64Value c = none → base64Digit n ≠ c := by
    rintro _ hc rfl
    exact nomatch hc.symm.trans (base64Value_digit hn)
  exact ⟨hne _ rfl, hne _ rfl, hne _ rfl⟩

/-- The values of the digits of an encoding. -/
def base64Values : List UInt8 → List ℕ
  | a :: b :: c :: rest =>
    let n := a.toNat * 65536 + b.toNat * 256 + c.toNat
    [n / 262144, n / 4096 % 64, n / 64 % 64, n % 64] ++ base64Values rest
  | [a, b] =>
    let n := a.toNat * 65536 + b.toNat * 256
    [n / 262144, n / 4096 % 64, n / 64 % 64]
  | [a] => [a.toNat * 65536 / 262144, a.toNat * 65536 / 4096 % 64]
  | [] => []

theorem base64Encode_eq : base64Encode m = (base64Values m).map base64Digit := by
  fun_induction base64Values m with
  | case1 a b c rest n ih => simp only [base64Encode, ih, List.map_append, List.map_cons, List.map_nil]; rfl
  | case2 a b n => rfl
  | case3 a => rfl
  | case4 => rfl

theorem base64Values_lt : ∀ n ∈ base64Values m, n < 64 := by
  fun_induction base64Values m with
  | case1 a b c rest n ih =>
    have ha := a.toNat_lt
    have hb := b.toNat_lt
    have hc := c.toNat_lt
    intro k hk
    rcases List.mem_append.1 hk with hk | hk
    · simp only [List.mem_cons, List.not_mem_nil, or_false] at hk
      omega
    · exact ih k hk
  | case2 a b n =>
    have ha := a.toNat_lt
    have hb := b.toNat_lt
    intro k hk
    simp only [List.mem_cons, List.not_mem_nil, or_false] at hk
    omega
  | case3 a =>
    have ha := a.toNat_lt
    intro k hk
    simp only [List.mem_cons, List.not_mem_nil, or_false] at hk
    omega
  | case4 => simp

theorem mapM_base64Value {l : List ℕ} (h : ∀ n ∈ l, n < 64) : (l.map base64Digit).mapM base64Value = some l := by
  induction l with
  | nil => rfl
  | cons n l ih =>
    have hn : base64Value (base64Digit n) = some n := base64Value_digit (h n (List.mem_cons_self ..))
    have hl := ih fun k hk => h k (List.mem_cons_of_mem _ hk)
    simp [List.mapM_cons, hn, hl]

theorem toUInt8_eq {n : ℕ} {a : UInt8} (h : n % 256 = a.toNat) : n.toUInt8 = a := by
  apply UInt8.toNat_inj.1
  simpa using h

theorem base64Bytes_values : base64Bytes (base64Values m) = some m := by
  fun_induction base64Values m with
  | case1 a b c rest n ih =>
    have ha := a.toNat_lt
    have hb := b.toNat_lt
    have hc := c.toNat_lt
    have hn : n / 262144 * 262144 + n / 4096 % 64 * 4096 + n / 64 % 64 * 64 + n % 64 = n := by omega
    have h1 : (n / 65536).toUInt8 = a := toUInt8_eq (by omega)
    have h2 : (n / 256).toUInt8 = b := toUInt8_eq (by omega)
    have h3 : n.toUInt8 = c := toUInt8_eq (by omega)
    simp only [List.cons_append, List.nil_append, base64Bytes, ih, hn, h1, h2, h3, Option.map_some]
  | case2 a b n =>
    have ha := a.toNat_lt
    have hb := b.toNat_lt
    have hn : n / 262144 * 262144 + n / 4096 % 64 * 4096 + n / 64 % 64 * 64 = n := by omega
    have h1 : (n / 65536).toUInt8 = a := toUInt8_eq (by omega)
    have h2 : (n / 256).toUInt8 = b := toUInt8_eq (by omega)
    simp only [base64Bytes, hn, h1, h2]
  | case3 a =>
    have ha := a.toNat_lt
    have hn : a.toNat * 65536 / 262144 * 262144 + a.toNat * 65536 / 4096 % 64 * 4096 = a.toNat * 65536 := by omega
    have h1 : (a.toNat * 65536 / 65536).toUInt8 = a := toUInt8_eq (by omega)
    simp only [base64Bytes, hn, h1]
  | case4 => rfl

/-- **Decoding undoes encoding.** -/
theorem base64Decode_encode : base64Decode (base64Encode m) = some m := by
  have hfilter : (base64Encode m).filter (fun c => c ≠ 10 ∧ c ≠ 13) = base64Encode m := by
    refine List.filter_eq_self.2 fun c hc => ?_
    rw [base64Encode_eq] at hc
    obtain ⟨n, hn, rfl⟩ := List.mem_map.1 hc
    obtain ⟨h1, h2, -⟩ := base64Digit_plain (base64Values_lt m n hn)
    simp [h1, h2]
  have hvalues : (base64Encode m).mapM base64Value = some (base64Values m) := by
    rw [base64Encode_eq]
    exact mapM_base64Value (base64Values_lt m)
  unfold base64Decode
  rw [hfilter, hvalues]
  exact base64Bytes_values m

theorem not_mem_base64Encode : (46 : UInt8) ∉ base64Encode m := by
  rw [base64Encode_eq]
  intro h
  obtain ⟨n, hn, h46⟩ := List.mem_map.1 h
  exact (base64Digit_plain (base64Values_lt m n hn)).2.2 h46

end Distort.Go
