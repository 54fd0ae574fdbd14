import Mathlib.Data.Nat.Digits
import Libpqxx.Lifecycle

/-!
# Names from `adorn_name`

`adorn_name` raises the connection's counter and appends it to the base name
after `_`, or after `x` for an empty base. The id can be read back from any
name built this way, whatever the base: it is the decimal text after the last
`_`, or after the `x`, since decimal digits hold no `_`.
-/

set_option autoImplicit false

namespace Pqxx.Lifecycle

def adornedName (n : String) (id : ℕ) : String :=
  if n.isEmpty then "x" ++ toString id else n ++ "_" ++ toString id

def adornName (i : ℕ) (n : String) : W String := do
  let id := (← obj i).uniqueId + 1
  modifyObj i fun c => { c with uniqueId := id }
  return adornedName n id

def decimalValue (cs : List Char) : ℕ := cs.foldl (fun acc c => 10 * acc + (c.toNat - '0'.toNat)) 0

theorem digitChar_value : ∀ d < 10, (Nat.digitChar d).toNat - '0'.toNat = d := by decide

theorem digitChar_isDigit : ∀ d < 10, (Nat.digitChar d).isDigit = true := by decide

theorem toDigitsCore_append (fuel n : ℕ) (ds : List Char) :
    Nat.toDigitsCore 10 fuel n ds = Nat.toDigitsCore 10 fuel n [] ++ ds := by
  induction fuel generalizing n ds with
  | zero => rfl
  | succ f ih =>
    simp only [Nat.toDigitsCore]
    split
    · rfl
    · rw [ih _ (_ :: ds), ih _ [_]]
      simp

theorem decimalValue_toDigitsCore (fuel n : ℕ) (h : n < fuel) :
    decimalValue (Nat.toDigitsCore 10 fuel n []) = n := by
  induction fuel generalizing n with
  | zero => omega
  | succ f ih =>
    simp only [Nat.toDigitsCore]
    split
    · simp only [decimalValue, List.foldl_cons, List.foldl_nil, digitChar_value _ (Nat.mod_lt n (by omega))]
      omega
    · rename_i hn
      rw [toDigitsCore_append, decimalValue, List.foldl_append, ← decimalValue, ih _ (by omega)]
      simp only [List.foldl_cons, List.foldl_nil, digitChar_value _ (Nat.mod_lt n (by omega))]
      omega

theorem isDigit_of_mem_toDigitsCore (fuel n : ℕ) (ds : List Char) (c : Char)
    (h : c ∈ Nat.toDigitsCore 10 fuel n ds) : c ∈ ds ∨ c.isDigit = true := by
  induction fuel generalizing n ds with
  | zero => exact .inl h
  | succ f ih =>
    simp only [Nat.toDigitsCore] at h
    have hd := digitChar_isDigit (n % 10) (Nat.mod_lt n (by omega))
    split at h
    · rcases List.mem_cons.1 h with rfl | h
      · exact .inr hd
      · exact .inl h
    · rcases ih _ _ h with h | h
      · rcases List.mem_cons.1 h with rfl | h
        · exact .inr hd
        · exact .inl h
      · exact .inr h

theorem toString_data (n : ℕ) : (toString n).data = Nat.toDigitsCore 10 (n + 1) n [] := rfl

theorem toString_injective {a b : ℕ} (h : toString a = toString b) : a = b := by
  have := congrArg (fun s : String => decimalValue s.data) h
  simpa [toString_data, decimalValue_toDigitsCore] using this

theorem underscore_not_mem_toString (n : ℕ) : '_' ∉ (toString n).data := fun h => by
  rcases isDigit_of_mem_toDigitsCore _ _ _ _ h with h | h
  · cases h
  · exact absurd h (by decide)

theorem eq_of_append_sep {sep : Char} {x y u v : List Char} (hx : sep ∉ x) (hy : sep ∉ y)
    (h : x ++ sep :: u = y ++ sep :: v) : x = y := by
  induction x generalizing y with
  | nil => cases y with
    | nil => rfl
    | cons c y => simp at h; exact absurd (h.1 ▸ List.mem_cons_self _ _) hy
  | cons c x ih => cases y with
    | nil => simp at h; exact absurd (h.1 ▸ List.mem_cons_self _ _) hx
    | cons d y =>
      simp only [List.cons_append, List.cons.injEq] at h
      rw [h.1, ih (fun hm => hx (.tail _ hm)) (fun hm => hy (.tail _ hm)) h.2]

theorem underscore_not_mem_x (a : ℕ) : '_' ∉ 'x' :: (toString a).data := by
  simp [underscore_not_mem_toString]

theorem adornedName_id {n m : String} {a b : ℕ} (h : adornedName n a = adornedName m b) : a = b := by
  have hd := congrArg String.data h
  unfold adornedName at hd
  split_ifs at hd <;> simp at hd
  · exact toString_injective (String.ext hd)
  · exact absurd (by rw [hd]; simp) (underscore_not_mem_x a)
  · exact absurd (by rw [← hd]; simp) (underscore_not_mem_x b)
  · have hr := congrArg List.reverse hd
    simp only [List.reverse_append, List.reverse_cons, List.append_assoc, List.singleton_append] at hr
    have hs (k : ℕ) : '_' ∉ (toString k).data.reverse := by simpa using underscore_not_mem_toString k
    exact toString_injective (String.ext (List.reverse_injective (eq_of_append_sep (hs a) (hs b) hr)))

end Pqxx.Lifecycle
