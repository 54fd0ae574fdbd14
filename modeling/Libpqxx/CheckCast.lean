import Mathlib.Tactic.Linarith

/-!
# Checked integral casts

`check_cast<TO>(value, description, loc)` converts between integral types,
throwing `range_error` when the value does not fit. An integral type is its
width and signedness; a value is the mathematical integer it stands for.
-/

set_option autoImplicit false

namespace Pqxx.CheckCast

structure IntType where
  bits : ℕ
  signed : Bool
  deriving DecidableEq, Repr

def IntType.lowest (t : IntType) : ℤ := if t.signed then -2 ^ (t.bits - 1) else 0

def IntType.max (t : IntType) : ℤ := if t.signed then 2 ^ (t.bits - 1) - 1 else 2 ^ t.bits - 1

def int : IntType := ⟨32, true⟩
def unsigned : IntType := ⟨32, false⟩

def checkCast (TO FROM : IntType) (value : ℤ) (description : String) : Except String ℤ :=
  if FROM.signed ∧ TO.signed ∧ value < TO.lowest then
    .error s!"Cast underflow: {description}"
  else if FROM.signed ∧ ¬TO.signed ∧ value < 0 then
    .error s!"Casting negative value to unsigned type: {description}"
  else if TO.max < FROM.max ∧ TO.max < value then
    .error s!"Cast overflow: {description}"
  else .ok value

theorem IntType.lowest_nonpos (t : IntType) : t.lowest ≤ 0 := by
  unfold IntType.lowest
  split <;> simp

theorem IntType.lowest_unsigned {t : IntType} (h : t.signed = false) : t.lowest = 0 := by
  simp [IntType.lowest, h]

section Exact

variable (TO FROM : IntType) (description : String) {v : ℤ}

theorem checkCast_ok {r : ℤ} (h : checkCast TO FROM v description = .ok r) : r = v := by
  unfold checkCast at h
  split_ifs at h
  cases h
  rfl

theorem checkCast_error_iff (hv : FROM.lowest ≤ v ∧ v ≤ FROM.max) :
    (∃ msg, checkCast TO FROM v description = .error msg) ↔ v < TO.lowest ∨ TO.max < v := by
  unfold checkCast
  split_ifs with h₁ h₂ h₃
  · exact iff_of_true ⟨_, rfl⟩ (.inl h₁.2.2)
  · have hT : TO.signed = false := by simpa using h₂.2.1
    exact iff_of_true ⟨_, rfl⟩ (.inl (by rw [IntType.lowest_unsigned hT]; exact h₂.2.2))
  · exact iff_of_true ⟨_, rfl⟩ (.inr h₃.2)
  · refine iff_of_false (by simp) ?_
    rintro (h | h)
    · cases hF : FROM.signed
      · have := TO.lowest_nonpos
        rw [IntType.lowest_unsigned hF] at hv
        omega
      · cases hT : TO.signed
        · rw [IntType.lowest_unsigned hT] at h
          exact h₂ ⟨hF, by simp [hT], h⟩
        · exact h₁ ⟨hF, hT, h⟩
    · exact h₃ ⟨lt_of_lt_of_le h hv.2, h⟩

end Exact

/-- `check_cast` is an exact range check: for every value of `FROM`, it
throws exactly when the value lies outside `TO`'s range, and otherwise
returns the value unchanged. -/
theorem check_cast_exact (TO FROM : IntType) (description : String) (v : ℤ)
    (hv : FROM.lowest ≤ v ∧ v ≤ FROM.max) :
    ((∃ msg, checkCast TO FROM v description = .error msg) ↔ v < TO.lowest ∨ TO.max < v) ∧
      (TO.lowest ≤ v → v ≤ TO.max → checkCast TO FROM v description = .ok v) := by
  refine ⟨checkCast_error_iff TO FROM description hv, fun hlo hhi => ?_⟩
  cases h : checkCast TO FROM v description with
  | error msg => exact absurd ((checkCast_error_iff TO FROM description hv).1 ⟨msg, h⟩) (by omega)
  | ok r => rw [checkCast_ok TO FROM description h]

theorem check_cast_line_length :
    (⟨64, true⟩ : IntType).lowest ≤ 5 ∧ (5 : ℤ) ≤ (⟨64, true⟩ : IntType).max ∧
      ((∃ msg, checkCast int ⟨64, true⟩ 5 "Line in stream_to is too long to process." = .error msg) ↔
          5 < int.lowest ∨ int.max < 5) ∧
        (int.lowest ≤ 5 → 5 ≤ int.max →
          checkCast int ⟨64, true⟩ 5 "Line in stream_to is too long to process." = .ok 5) :=
  have hv : (⟨64, true⟩ : IntType).lowest ≤ 5 ∧ (5 : ℤ) ≤ (⟨64, true⟩ : IntType).max := by
    norm_num [IntType.lowest, IntType.max]
  ⟨hv.1, hv.2, check_cast_exact int ⟨64, true⟩ "Line in stream_to is too long to process." 5 hv⟩

end Pqxx.CheckCast
