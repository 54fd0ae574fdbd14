import Mathlib.Logic.Function.Basic
import Mathlib.Data.List.GetD
import Mathlib.Algebra.Group.Nat.Basic

/-!
# Copying text into a span

`copy_chars<terminate>(src, dst, dst_offset)` compares `dst_offset + |src| +
terminate`, computed in `std::size_t`, with the span's size, copies `src` to
`dst_offset` and, when `terminate`, writes a zero behind it. `std::size_t`
has `w` bits. Memory is bytes by address, addresses taken modulo `2 ^ w` as
pointer arithmetic takes them, so that a write outside the span can be seen.
The span has `size` bytes from address `base`.
-/

set_option autoImplicit false

namespace Pqxx.CopyChars

abbrev Mem := ℕ → Char

def store (w : ℕ) (mem : Mem) (addr : ℕ) : List Char → Mem
  | [] => mem
  | c :: cs => store w (Function.update mem (addr % 2 ^ w) c) (addr + 1) cs

def copyChars (w : ℕ) (terminate : Bool) (src : List Char) (base size dstOffset : ℕ) (mem : Mem) :
    Except String (ℕ × Mem) :=
  let sz := src.length
  if size < (dstOffset + sz + terminate.toNat) % 2 ^ w then
    let text := String.mk src
    .error s!"Text copy exceeded buffer space: tried to copy {sz} bytes '{text}' into a buffer of {size} bytes, at offset {dstOffset}."
  else
    let copied := store w mem (base + dstOffset) src
    let pos := (dstOffset + sz) % 2 ^ w
    if terminate then .ok ((pos + 1) % 2 ^ w, Function.update copied ((base + pos) % 2 ^ w) '\x00')
    else .ok (pos, copied)

/-- Two bytes at offset `SIZE_MAX` in a ten-byte span at address 16: the sum
wraps to 1, so the check passes; the call returns 1 and has written `'a'`
at address 15, before the span. -/
theorem copy_chars_wrapped_offset_writes_outside :
    ∃ mem', copyChars 64 false ['a', 'b'] 16 10 (2 ^ 64 - 1) (fun _ => ' ') = .ok (1, mem') ∧
      mem' 15 = 'a' ∧ 10 < 2 ^ 64 - 1 + 2 :=
  ⟨_, rfl, by decide, by decide⟩

section Store

variable (w : ℕ)

theorem store_frame (mem : Mem) (addr : ℕ) (cs : List Char) {a : ℕ} (hw : addr + cs.length ≤ 2 ^ w)
    (ha : a < addr ∨ addr + cs.length ≤ a) : store w mem addr cs a = mem a := by
  induction cs generalizing mem addr with
  | nil => rfl
  | cons c cs ih =>
    simp only [List.length_cons] at hw ha
    rw [store, ih _ _ (by omega) (by omega), Function.update_noteq]
    rw [Nat.mod_eq_of_lt (by omega)]
    omega

theorem store_lane (mem : Mem) (addr : ℕ) (cs : List Char) {k : ℕ} (hk : k < cs.length)
    (hw : addr + cs.length ≤ 2 ^ w) : store w mem addr cs (addr + k) = cs[k] := by
  induction cs generalizing mem addr k with
  | nil => simp at hk
  | cons c cs ih =>
    simp only [List.length_cons] at hw hk
    cases k with
    | zero =>
      rw [store, store_frame w _ _ _ (by omega) (by omega), Nat.add_zero, Nat.mod_eq_of_lt (by omega)]
      simp
    | succ k =>
      rw [store, show addr + (k + 1) = addr + 1 + k by omega, ih _ _ (by omega) (by omega)]
      rfl

end Store

/-- Without wraparound in `dst_offset + |src| + terminate`, `copy_chars` is
exact: it throws exactly when that sum exceeds the span, and otherwise
returns the sum, having written `src` from `dst_offset`, the zero behind it
when `terminate`, and no other byte of memory. -/
theorem copy_chars_exact (w : ℕ) (terminate : Bool) (src : List Char) (base size dstOffset : ℕ)
    (mem : Mem) (hspan : base + size ≤ 2 ^ w) (hsum : dstOffset + src.length + terminate.toNat < 2 ^ w) :
    ((∃ msg, copyChars w terminate src base size dstOffset mem = .error msg) ↔
        size < dstOffset + src.length + terminate.toNat) ∧
      ∀ r mem', copyChars w terminate src base size dstOffset mem = .ok (r, mem') →
        r = dstOffset + src.length + terminate.toNat ∧ r ≤ size ∧
        (∀ k (hk : k < src.length), mem' (base + dstOffset + k) = src[k]) ∧
        (terminate → mem' (base + r - 1) = '\x00') ∧
        ∀ a, a < base + dstOffset ∨ base + r ≤ a → mem' a = mem a := by
  dsimp only [copyChars]
  rw [Nat.mod_eq_of_lt hsum]
  by_cases hover : size < dstOffset + src.length + terminate.toNat
  · rw [if_pos hover]
    exact ⟨iff_of_true ⟨_, rfl⟩ hover, fun _ _ h => by cases h⟩
  rw [if_neg hover]
  refine ⟨iff_of_false (by split <;> simp) hover, fun r mem' h => ?_⟩
  have hpos : (dstOffset + src.length) % 2 ^ w = dstOffset + src.length := Nat.mod_eq_of_lt (by omega)
  have hroom : base + dstOffset + src.length ≤ 2 ^ w := by omega
  cases terminate with
  | false =>
    simp only [hpos, Bool.false_eq_true, if_false, Except.ok.injEq, Prod.mk.injEq] at h
    obtain ⟨rfl, rfl⟩ := h
    refine ⟨rfl, by simpa using hover, fun k hk => store_lane w _ _ _ hk hroom, by simp,
      fun a ha => store_frame w _ _ _ hroom (by omega)⟩
  | true =>
    simp only [hpos, if_true, Except.ok.injEq, Prod.mk.injEq] at h
    obtain ⟨rfl, rfl⟩ := h
    simp only [Bool.toNat_true] at hover hsum ⊢
    have hend : (base + (dstOffset + src.length)) % 2 ^ w = base + dstOffset + src.length := by
      rw [← Nat.add_assoc]; exact Nat.mod_eq_of_lt (by omega)
    rw [Nat.mod_eq_of_lt (by omega), hend]
    refine ⟨rfl, by omega, fun k hk => ?_, fun _ => ?_, fun a ha => ?_⟩
    · rw [Function.update_noteq (by omega), store_lane w _ _ _ hk hroom]
    · rw [show base + (dstOffset + src.length + 1) - 1 = base + dstOffset + src.length by omega]
      exact Function.update_same _ _ _
    · rw [Function.update_noteq (by omega), store_frame w _ _ _ hroom (by omega)]

theorem copy_chars_exact_terminated :
    16 + 8 ≤ 2 ^ 64 ∧ 2 + ['a', 'b', 'c'].length + true.toNat < 2 ^ 64 ∧
      (((∃ msg, copyChars 64 true ['a', 'b', 'c'] 16 8 2 (fun _ => ' ') = .error msg) ↔
          8 < 2 + ['a', 'b', 'c'].length + true.toNat) ∧
        ∀ r mem', copyChars 64 true ['a', 'b', 'c'] 16 8 2 (fun _ => ' ') = .ok (r, mem') →
          r = 2 + ['a', 'b', 'c'].length + true.toNat ∧ r ≤ 8 ∧
          (∀ k (hk : k < ['a', 'b', 'c'].length), mem' (16 + 2 + k) = ['a', 'b', 'c'][k]) ∧
          (true → mem' (16 + r - 1) = '\x00') ∧
          ∀ a, a < 16 + 2 ∨ 16 + r ≤ a → mem' a = (fun _ => ' ') a) :=
  ⟨by decide, by decide, copy_chars_exact 64 true ['a', 'b', 'c'] 16 8 2 _ (by decide) (by decide)⟩

end Pqxx.CopyChars
