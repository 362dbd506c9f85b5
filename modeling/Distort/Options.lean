import Distort.Go.Basic

/-!
Backend options: the package `storageoptions`.
-/

namespace Distort.Options

open Go

def spdkCoreMaskOption : Str := "spdk-core-mask"
def maxSPDKCoreMaskLength : ℕ := 258

def isHexDigit (b : UInt8) : Bool :=
  (48 ≤ b && b ≤ 57) || (65 ≤ b && b ≤ 70) || (97 ≤ b && b ≤ 102)

/-- The pattern `^0x[0-9A-Fa-f]+$`. -/
def spdkCoreMaskPattern (s : Str) : Bool :=
  hasPrefix s "0x" && s.drop 2 ≠ [] && (s.drop 2).all isHexDigit

def validateSPDKCoreMask (coreMask : Str) : Except Err Unit :=
  if coreMask.length > maxSPDKCoreMaskLength then
    .error (.errorf "%s exceeds the maximum length of %d characters"
      [.str spdkCoreMaskOption, .int maxSPDKCoreMaskLength])
  else if !spdkCoreMaskPattern coreMask then
    .error (.errorf "%s must match 0x followed by hexadecimal digits, got %q" [.str spdkCoreMaskOption, .str coreMask])
  else if (coreMask.drop 2).all (· = 48) then
    .error (.errorf "%s must select at least one CPU, got %q" [.str spdkCoreMaskOption, .str coreMask])
  else .ok ()

/-- One option for a backend that is not the empty string. -/
def validateOption (targetBackend name value : Str) : Except Err Unit :=
  if targetBackend = "spdk" then
    if name ≠ spdkCoreMaskOption then .error (.errorf "unsupported SPDK backend option %q" [.str name])
    else validateSPDKCoreMask value
  else if targetBackend = "kernel" then .error (.errorf "unsupported kernel backend option %q" [.str name])
  else .error (.errorf "unsupported target backend %q" [.str targetBackend])

/-- `Validate`: the first option in the order of the list that is refused. -/
def validate (targetBackend : Str) : List (Str × Str) → Except Err Unit
  | [] => .ok ()
  | (name, value) :: options =>
    match validateOption (if targetBackend = [] then "spdk" else targetBackend) name value with
    | .error err => .error err
    | .ok _ => validate targetBackend options

/-! ### What is accepted -/

variable {targetBackend : Str}

/-- Every option that is accepted for one of the two backends is the core mask, for SPDK. -/
theorem validate_eq_ok (hne : targetBackend ≠ []) {options : List (Str × Str)} :
    validate targetBackend options = .ok () ↔
      ∀ o ∈ options, o.1 = spdkCoreMaskOption ∧ targetBackend = "spdk" ∧ validateSPDKCoreMask o.2 = .ok () := by
  induction options with
  | nil => simp [validate]
  | cons option options ih =>
    have hoption : validateOption targetBackend option.1 option.2 = .ok () ↔
        option.1 = spdkCoreMaskOption ∧ targetBackend = "spdk" ∧ validateSPDKCoreMask option.2 = .ok () := by
      unfold validateOption
      split_ifs <;> simp_all
    rw [List.forall_mem_cons, ← hoption, ← ih]
    simp only [validate, hne, if_false]
    split <;> simp_all

theorem validateSPDKCoreMask_eq_ok {coreMask : Str} :
    validateSPDKCoreMask coreMask = .ok () ↔ coreMask.length ≤ maxSPDKCoreMaskLength ∧
      ∃ digits, coreMask = 48 :: 120 :: digits ∧ (∀ d ∈ digits, isHexDigit d = true) ∧ ∃ d ∈ digits, d ≠ 48 := by
  have hpattern : spdkCoreMaskPattern coreMask = true ↔
      ∃ digits, coreMask = 48 :: 120 :: digits ∧ digits ≠ [] ∧ ∀ d ∈ digits, isHexDigit d = true := by
    rw [spdkCoreMaskPattern, Bool.and_eq_true, Bool.and_eq_true, decide_eq_true_eq, List.all_eq_true, and_assoc]
    constructor
    · rintro ⟨hfront, hne, hall⟩
      obtain ⟨digits, rfl⟩ := List.isPrefixOf_iff_prefix.1 hfront
      exact ⟨digits, rfl, hne, hall⟩
    · rintro ⟨digits, rfl, hne, hall⟩
      exact ⟨rfl, hne, hall⟩
  have hzero : ∀ digits : Str, ¬ digits.all (· = 48) = true ↔ ∃ d ∈ digits, d ≠ 48 := by
    intro digits
    simp
  unfold validateSPDKCoreMask
  split_ifs with hlength hno hnone
  · exact iff_of_false nofun fun h => absurd h.1 (Nat.not_le.2 hlength)
  · refine iff_of_false nofun ?_
    rintro ⟨-, digits, rfl, hall, d, hd, -⟩
    rw [hpattern.2 ⟨digits, rfl, List.ne_nil_of_mem hd, hall⟩] at hno
    cases hno
  · refine iff_of_false nofun ?_
    rintro ⟨-, digits, rfl, -, hsome⟩
    exact (hzero digits).2 hsome hnone
  · refine iff_of_true rfl ⟨Nat.not_lt.1 hlength, ?_⟩
    obtain ⟨digits, rfl, -, hall⟩ := hpattern.1 (by simpa using hno)
    exact ⟨digits, rfl, hall, (hzero digits).1 hnone⟩

/-! ### The errors -/

theorem kind_of_validateSPDKCoreMask {coreMask : Str} {err : Err} (h : validateSPDKCoreMask coreMask = .error err) :
    err.kind = .other := by
  unfold validateSPDKCoreMask at h
  split_ifs at h <;> cases h <;> rfl

theorem kind_of_validateOption {name value : Str} {err : Err}
    (h : validateOption targetBackend name value = .error err) : err.kind = .other := by
  unfold validateOption at h
  split_ifs at h
  · cases h
    rfl
  · exact kind_of_validateSPDKCoreMask h
  · cases h
    rfl
  · cases h
    rfl

theorem kind_of_validate {options : List (Str × Str)} {err : Err}
    (h : validate targetBackend options = .error err) : err.kind = .other := by
  induction options with
  | nil => cases h
  | cons option options ih =>
    simp only [validate] at h
    split at h
    · rename_i hoption
      cases h
      exact kind_of_validateOption hoption
    · exact ih h

end Distort.Options
