import Libpqxx.Lifecycle

/-! What a `close` inside a move does. `close` on one object touches no
other object and no notice processor, and when it returns it has finished
the object's `PGconn`. A move assignment onto itself closes the connection
before it exchanges the members with themselves, so it ends with `m_conn`
null and the `PGconn` finished. -/

set_option autoImplicit false

namespace Pqxx.Lifecycle

open Close

theorem closeObject_frame (name : ℕ → String) (f : CloseFaults) (i : ℕ) (w : World) :
    (∀ j, j ≠ i → (final (closeObject name f i w)).objects j = w.objects j) ∧
      (final (closeObject name f i w)).processor = w.processor := by
  unfold closeObject
  constructor
  · intro j hj
    cases close name f ⟨w.objects i, w.hubs, [], []⟩ <;> simp [Function.update_noteq hj]
  · cases close name f ⟨w.objects i, w.hubs, [], []⟩ <;> rfl

def idleObject : World where
  objects := Function.update (fun _ => blank) 0 ⟨some 0, some 0, HandlerMap.empty, [], none, 7⟩
  hubs := fun _ => ⟨[], none⟩
  processor := Function.update (fun _ => none) 0 (some 0)
  finished := []
  nextObject := 1
  nextConn := 1
  nextHub := 1

theorem closeObject_ok {name : ℕ → String} {f : CloseFaults} {i : ℕ} {w w₁ : World} {pg : ℕ}
    (hc : (w.objects i).conn = some pg) (h : closeObject name f i w = .ok () w₁) :
    (w₁.objects i).conn = none ∧ w₁.finished = w.finished ++ [pg] := by
  unfold closeObject at h
  cases hr : close name f ⟨w.objects i, w.hubs, [], []⟩ with
  | error e s' => simp [hr] at h
  | ok u s' =>
    obtain ⟨hconn, -, -, ns, hlog, hns⟩ := close_returns name f _ s' pg hc hr
    simp only [hr, EStateM.Result.ok.injEq] at h
    obtain ⟨-, rfl⟩ := h
    simp [hconn, hlog, finishedBy_notices hns, finishedBy]

/-- Moving a connection onto itself closes it: when the assignment returns,
`m_conn` is null and its `PGconn` has been finished. -/
theorem self_move_assign_closes (name : ℕ → String) (f : CloseFaults) (i : ℕ) (w w' : World) (pg : ℕ)
    (hc : (w.objects i).conn = some pg) (h : moveAssign name f i i w = .ok () w') :
    (w'.objects i).conn = none ∧ w'.finished = w.finished ++ [pg] := by
  simp only [moveAssign, checkOverwritable, checkMovable, checkGuests_apply, bind_apply] at h
  split_ifs at h with ht hr
  simp only [if_neg ht, if_neg hr] at h
  cases hcl : closeObject name f i w with
  | error e w₁ => simp [hcl] at h
  | ok u w₁ =>
    obtain ⟨hconn, hfin⟩ := closeObject_ok hc hcl
    simp only [hcl, exchangeConn, obj, setConn, modifyObj, bind_apply, get_apply, pure_apply,
      modify_apply] at h
    cases h
    simp [hconn, hfin]

theorem self_move_assign_idle :
    (idleObject.objects 0).conn = some 0 ∧
      moveAssign (fun _ => "") ⟨false, false⟩ 0 0 idleObject =
        .ok () (final (moveAssign (fun _ => "") ⟨false, false⟩ 0 0 idleObject)) ∧
      (((final (moveAssign (fun _ => "") ⟨false, false⟩ 0 0 idleObject)).objects 0).conn = none ∧
        (final (moveAssign (fun _ => "") ⟨false, false⟩ 0 0 idleObject)).finished =
          idleObject.finished ++ [0]) :=
  ⟨rfl, rfl, self_move_assign_closes (fun _ => "") ⟨false, false⟩ 0 idleObject _ 0 rfl rfl⟩

end Pqxx.Lifecycle
