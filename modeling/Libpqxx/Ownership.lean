import Mathlib.Logic.Relation
import Mathlib.Logic.Function.Basic
import Mathlib.Data.List.Nodup

/-! Ownership of `PGconn` handles, abstractly: which connection object holds
which handle, the handles passed to `PQfinish` in order, and the next handle
libpq gives out. A handle is taken fresh, moved from one holder to another,
finished by its holder, or dropped by it (leaked). `Valid` says each handle
has at most one holder, that no holder keeps a finished handle, and that no
handle is finished twice; every move keeps it. -/

set_option autoImplicit false

namespace Pqxx.Ownership

/-- Who holds which handle. -/
@[ext] structure Owners where
  holds : ℕ → Option ℕ
  finished : List ℕ
  next : ℕ

inductive Move : Owners → Owners → Prop
  | issue (o : Owners) : Move o { o with next := o.next + 1 }
  | acquire (o : Owners) (i : ℕ) :
      Move o { o with holds := Function.update o.holds i (some o.next), next := o.next + 1 }
  | release (o : Owners) (i pg : ℕ) (h : o.holds i = some pg) :
      Move o { o with holds := Function.update o.holds i none, finished := o.finished ++ [pg] }
  | drop (o : Owners) (i : ℕ) : Move o { o with holds := Function.update o.holds i none }
  | transfer (o : Owners) (src tgt : ℕ) :
      Move o { o with holds := Function.update (Function.update o.holds tgt (o.holds src)) src none }

def Moves : Owners → Owners → Prop := Relation.ReflTransGen Move

theorem Moves.refl (o : Owners) : Moves o o := Relation.ReflTransGen.refl

theorem Moves.single {o o' : Owners} (h : Move o o') : Moves o o' := Relation.ReflTransGen.single h

theorem Moves.trans {o₁ o₂ o₃ : Owners} (h₁ : Moves o₁ o₂) (h₂ : Moves o₂ o₃) : Moves o₁ o₃ :=
  Relation.ReflTransGen.trans h₁ h₂

theorem Moves.of_eq {o o' : Owners} (h : o = o') : Moves o o' := h ▸ Moves.refl o

theorem Moves.single_eq {o o₁ o₂ : Owners} (h : Move o o₁) (he : o₁ = o₂) : Moves o o₂ :=
  he ▸ Moves.single h

structure Owners.Valid (o : Owners) : Prop where
  exclusive : ∀ i j pg, o.holds i = some pg → o.holds j = some pg → i = j
  live : ∀ i pg, o.holds i = some pg → pg ∉ o.finished
  once : o.finished.Nodup
  held_issued : ∀ i pg, o.holds i = some pg → pg < o.next
  finished_issued : ∀ pg ∈ o.finished, pg < o.next

section Valid

variable {o : Owners}

theorem holds_update {f : ℕ → Option ℕ} {i j : ℕ} {v : Option ℕ} {pg : ℕ}
    (h : Function.update f i v j = some pg) : (j = i ∧ v = some pg) ∨ (j ≠ i ∧ f j = some pg) := by
  by_cases hj : j = i
  · subst hj; exact .inl ⟨rfl, by simpa using h⟩
  · exact .inr ⟨hj, by simpa [Function.update_noteq hj] using h⟩

theorem Owners.Valid.issue (hv : o.Valid) : ({ o with next := o.next + 1 } : Owners).Valid where
  exclusive := hv.exclusive
  live := hv.live
  once := hv.once
  held_issued i pg h := Nat.lt_succ_of_lt (hv.held_issued i pg h)
  finished_issued pg h := Nat.lt_succ_of_lt (hv.finished_issued pg h)

theorem Owners.Valid.acquire (hv : o.Valid) (i : ℕ) :
    ({ o with holds := Function.update o.holds i (some o.next), next := o.next + 1 } : Owners).Valid where
  exclusive a b pg ha hb := by
    simp only [Function.update_apply] at ha hb
    split_ifs at ha hb with h₁ h₂ h₂
    · rw [h₁, h₂]
    · cases ha; exact absurd (hv.held_issued b _ hb) (Nat.lt_irrefl _)
    · cases hb; exact absurd (hv.held_issued a _ ha) (Nat.lt_irrefl _)
    · exact hv.exclusive a b pg ha hb
  live a pg ha := by
    rcases holds_update ha with ⟨-, ha⟩ | ⟨-, ha⟩
    · cases ha; exact fun hf => Nat.lt_irrefl _ (hv.finished_issued _ hf)
    · exact hv.live a pg ha
  once := hv.once
  held_issued a pg ha := by
    rcases holds_update ha with ⟨-, ha⟩ | ⟨-, ha⟩
    · cases ha; exact Nat.lt_succ_self _
    · exact Nat.lt_succ_of_lt (hv.held_issued a pg ha)
  finished_issued pg h := Nat.lt_succ_of_lt (hv.finished_issued pg h)

theorem Owners.Valid.release (hv : o.Valid) {i pg : ℕ} (h : o.holds i = some pg) :
    ({ o with holds := Function.update o.holds i none, finished := o.finished ++ [pg] } : Owners).Valid where
  exclusive a b q ha hb := by
    rcases holds_update ha with ⟨-, ⟨⟩⟩ | ⟨-, ha⟩
    rcases holds_update hb with ⟨-, ⟨⟩⟩ | ⟨-, hb⟩
    exact hv.exclusive a b q ha hb
  live a q ha := by
    rcases holds_update ha with ⟨-, ⟨⟩⟩ | ⟨ha', ha⟩
    simp only [List.mem_append, List.mem_singleton, not_or]
    exact ⟨hv.live a q ha, fun hq => ha' (hv.exclusive a i q ha (hq ▸ h))⟩
  once := List.nodup_append.2 ⟨hv.once, List.nodup_singleton pg, by simpa using hv.live i pg h⟩
  held_issued a q ha := by
    rcases holds_update ha with ⟨-, ⟨⟩⟩ | ⟨-, ha⟩
    exact hv.held_issued a q ha
  finished_issued q hq := by
    rcases List.mem_append.1 hq with hq | hq
    · exact hv.finished_issued q hq
    · rw [List.mem_singleton.1 hq]; exact hv.held_issued i pg h

theorem Owners.Valid.drop (hv : o.Valid) (i : ℕ) :
    ({ o with holds := Function.update o.holds i none } : Owners).Valid where
  exclusive a b q ha hb := by
    rcases holds_update ha with ⟨-, ⟨⟩⟩ | ⟨-, ha⟩
    rcases holds_update hb with ⟨-, ⟨⟩⟩ | ⟨-, hb⟩
    exact hv.exclusive a b q ha hb
  live a q ha := by
    rcases holds_update ha with ⟨-, ⟨⟩⟩ | ⟨-, ha⟩
    exact hv.live a q ha
  once := hv.once
  held_issued a q ha := by
    rcases holds_update ha with ⟨-, ⟨⟩⟩ | ⟨-, ha⟩
    exact hv.held_issued a q ha
  finished_issued := hv.finished_issued

theorem holds_transfer {f : ℕ → Option ℕ} {src tgt j pg : ℕ}
    (h : Function.update (Function.update f tgt (f src)) src none j = some pg) :
    j ≠ src ∧ ((j = tgt ∧ f src = some pg) ∨ (j ≠ tgt ∧ f j = some pg)) := by
  rcases holds_update h with ⟨-, ⟨⟩⟩ | ⟨hj, h⟩
  exact ⟨hj, holds_update h⟩

theorem Owners.Valid.transfer (hv : o.Valid) (src tgt : ℕ) :
    ({ o with holds := Function.update (Function.update o.holds tgt (o.holds src)) src none } :
      Owners).Valid where
  exclusive a b q ha hb := by
    obtain ⟨ha', ⟨ha₁, hx⟩ | ⟨-, hx⟩⟩ := holds_transfer ha <;>
      obtain ⟨hb', ⟨hb₁, hy⟩ | ⟨-, hy⟩⟩ := holds_transfer hb
    · rw [ha₁, hb₁]
    · exact absurd (hv.exclusive _ _ q hx hy) (Ne.symm hb')
    · exact absurd (hv.exclusive _ _ q hx hy) ha'
    · exact hv.exclusive a b q hx hy
  live a q ha := by
    obtain ⟨-, ⟨-, hx⟩ | ⟨-, hx⟩⟩ := holds_transfer ha <;> exact hv.live _ q hx
  once := hv.once
  held_issued a q ha := by
    obtain ⟨-, ⟨-, hx⟩ | ⟨-, hx⟩⟩ := holds_transfer ha <;> exact hv.held_issued _ q hx
  finished_issued := hv.finished_issued

theorem Move.valid {o' : Owners} (hm : Move o o') (hv : o.Valid) : o'.Valid := by
  cases hm with
  | issue => exact hv.issue
  | acquire i => exact hv.acquire i
  | release i pg h => exact hv.release h
  | drop i => exact hv.drop i
  | transfer src tgt => exact hv.transfer src tgt

theorem Moves.valid {o' : Owners} (hm : Moves o o') (hv : o.Valid) : o'.Valid := by
  induction hm with
  | refl => exact hv
  | tail _ hstep ih => exact hstep.valid ih

end Valid

def Owners.initial : Owners := ⟨fun _ => none, [], 0⟩

theorem Owners.initial_valid : Owners.initial.Valid where
  exclusive _ _ _ h := by cases h
  live _ _ h := by cases h
  once := List.nodup_nil
  held_issued _ _ h := by cases h
  finished_issued _ h := by cases h

end Pqxx.Ownership
