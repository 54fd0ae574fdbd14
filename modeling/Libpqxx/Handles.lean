import Libpqxx.Lifecycle

/-! The connection objects seen as holders of `PGconn`s: every operation of
`Lifecycle`, returning or throwing, moves handles only as `Ownership.Move`
allows, so every reachable configuration is `Valid`. -/

set_option autoImplicit false

namespace Pqxx.Lifecycle

open Close Ownership

def World.owners (w : World) : Owners := ⟨fun i => (w.objects i).conn, w.finished, w.nextConn⟩

@[simp] theorem owners_holds (w : World) : w.owners.holds = fun i => (w.objects i).conn := rfl

@[simp] theorem owners_finished (w : World) : w.owners.finished = w.finished := rfl

@[simp] theorem owners_next (w : World) : w.owners.next = w.nextConn := rfl

@[simp] theorem conn_update (objs : ℕ → Conn) (i : ℕ) (c : Conn) :
    (fun j => (Function.update objs i c j).conn) = Function.update (fun j => (objs j).conn) i c.conn :=
  funext fun j => Function.apply_update (fun _ c => Conn.conn c) objs i c j

@[simp] theorem conn_update_apply (objs : ℕ → Conn) (i : ℕ) (c : Conn) (j : ℕ) :
    (Function.update objs i c j).conn = Function.update (fun j => (objs j).conn) i c.conn j :=
  Function.apply_update (fun _ c => Conn.conn c) objs i c j

theorem owners_update (w : World) (i : ℕ) (c : Conn) :
    ({ w with objects := Function.update w.objects i c } : World).owners =
      { w.owners with holds := Function.update w.owners.holds i c.conn } := by
  ext1 <;> simp

theorem alloc_owners (w : World) :
    w.alloc.owners = { w.owners with holds := Function.update w.owners.holds w.nextObject none } := by
  ext1 <;> simp [World.alloc, blank]

theorem destroy_owners (w : World) (i : ℕ) :
    (w.destroy i).owners = { w.owners with holds := Function.update w.owners.holds i none } := by
  ext1 <;> simp [World.destroy, blank]

/-- Every outcome of `x` moves handles only as `Move` allows. -/
def Sound {α : Type} (x : W α) : Prop := ∀ w, Moves w.owners (final (x w)).owners

section Combinators

variable {α β : Type}

theorem sound_of_owners {x : W α} (h : ∀ w, (final (x w)).owners = w.owners) : Sound x :=
  fun w => .of_eq (h w).symm

theorem sound_pure (a : α) : Sound (pure a : W α) := fun _ => .refl _

theorem sound_throw (e : Error) : Sound (throw e : W α) := fun _ => .refl _

theorem Sound.bind {x : W α} {f : α → W β} (hx : Sound x) (hf : ∀ a, Sound (f a)) :
    Sound (x >>= f) := by
  intro w
  have h := hx w
  rw [bind_apply]
  cases hxw : x w with
  | ok a w₁ => rw [hxw] at h; exact h.trans (hf a w₁)
  | error e w₁ => rw [hxw] at h; exact h

theorem Sound.tryCatch {x : W α} {h : Error → W α} (hx : Sound x) (hh : ∀ e, Sound (h e)) :
    Sound (tryCatch x h) := by
  intro w
  have h₁ := hx w
  rw [tryCatch_apply]
  cases hxw : x w with
  | ok a w₁ => rw [hxw] at h₁; exact h₁
  | error e w₁ => rw [hxw] at h₁; exact h₁.trans (hh e w₁)

theorem Sound.ite {c : Prop} [Decidable c] {x y : W α} (hx : Sound x) (hy : Sound y) :
    Sound (if c then x else y) := by
  split <;> assumption

theorem Sound.option {o : Option ℕ} {x : ℕ → W α} {y : W α} (hx : ∀ pg, Sound (x pg)) (hy : Sound y) :
    Sound (match o with
      | some pg => x pg
      | none => y) := by
  cases o <;> simp only [hx, hy]

end Combinators

theorem sound_obj (i : ℕ) : Sound (obj i) := sound_of_owners fun _ => rfl

theorem sound_modifyObj (i : ℕ) {f : Conn → Conn} (hf : ∀ c, (f c).conn = c.conn) :
    Sound (modifyObj i f) :=
  sound_of_owners fun w => by ext1 <;> simp [modifyObj, hf]

theorem sound_setConn_none (i : ℕ) : Sound (setConn i none) := fun w =>
  .single_eq (.drop _ i) (by ext1 <;> simp [setConn, modifyObj])

theorem sound_takeFresh (i : ℕ) : Sound (takeFresh i) := fun w =>
  .single_eq (.acquire _ i) (by ext1 <;> simp [takeFresh, setConn, modifyObj, newPGconn])

theorem sound_connectdb (t : Transport) (i : ℕ) : Sound (connectdb t i) :=
  Sound.ite (sound_takeFresh i) (sound_setConn_none i)

theorem sound_finishConn (i : ℕ) : Sound (finishConn i) := fun w => by
  simp only [finishConn, obj, bind_apply, get_apply, pure_apply]
  cases h : (w.objects i).conn with
  | none => exact sound_setConn_none i w
  | some pg =>
    exact .single_eq (.release w.owners i pg h) (by ext1 <;> simp [pqFinish, setConn, modifyObj])

theorem sound_exchangeConn (tgt src : ℕ) : Sound (exchangeConn tgt src) := fun w => by
  by_cases h : tgt = src
  · subst h
    exact .of_eq (by ext1 <;> simp [exchangeConn, obj, setConn, modifyObj])
  · refine .single_eq (.transfer _ src tgt) ?_
    ext1 <;> simp [exchangeConn, obj, setConn, modifyObj, Function.update_noteq h, Function.update_comm h]

theorem sound_newHub : Sound newHub := sound_of_owners fun _ => rfl

theorem sound_setNoticeProcessor (pg : ℕ) (hub : Option ℕ) : Sound (setNoticeProcessor pg hub) :=
  sound_of_owners fun _ => rfl

theorem sound_construct_of {body : ℕ → W Unit}
    (hok : ∀ (w w' : World), body w.nextObject w.alloc = .ok () w' → Moves w.owners w'.owners)
    (herr : ∀ (w : World) (e : Error) (w' : World), body w.nextObject w.alloc = .error e w' →
      Moves w.owners (w'.destroy w.nextObject).owners) :
    Sound (construct body) := fun w => by
  rw [construct_apply]
  cases h : body w.nextObject w.alloc with
  | ok _ w' => exact hok w w' h
  | error e w' => exact herr w e w' h

theorem sound_construct {body : ℕ → W Unit} (hb : ∀ i, Sound (body i)) : Sound (construct body) := by
  have halloc (w : World) : Moves w.owners w.alloc.owners := .single_eq (.drop _ _) (alloc_owners w).symm
  refine sound_construct_of (fun w w' h => ?_) (fun w e w' h => ?_)
  · simpa [h] using (halloc w).trans (hb w.nextObject w.alloc)
  · have hbody := (halloc w).trans (hb w.nextObject w.alloc)
    rw [h, final_error] at hbody
    exact hbody.trans (.single_eq (.drop _ _) (destroy_owners w' _).symm)

theorem sound_setUpNoticeHandlers (t : Transport) (i : ℕ) : Sound (setUpNoticeHandlers t i) := by
  have hjp : Sound (do
      let c ← obj i
      if let some pg := c.conn then setNoticeProcessor pg c.noticeWaiters) :=
    (sound_obj i).bind fun c => by
      split
      · exact sound_setNoticeProcessor _ _
      · exact sound_pure _
  have hhub : Sound (do
      let hub ← newHub
      modifyObj i fun c => { c with noticeWaiters := some hub }
      let c ← obj i
      if let some pg := c.conn then setNoticeProcessor pg c.noticeWaiters) :=
    sound_newHub.bind fun _ => (sound_modifyObj i fun _ => by rfl).bind fun _ => hjp
  unfold setUpNoticeHandlers
  exact (sound_obj i).bind fun c => Sound.ite
    (Sound.ite ((sound_throw _).bind fun _ => hhub) ((sound_pure _).bind fun _ => hhub))
    ((sound_pure _).bind fun _ => hjp)

theorem sound_setUpState (t : Transport) : Sound (setUpState t) :=
  sound_of_owners fun w => by unfold setUpState; split_ifs <;> rfl

theorem checkGuests_cases (a b : String) (i : ℕ) (w : World) :
    checkGuests a b i w = .ok () w ∨ ∃ e, checkGuests a b i w = .error e w := by
  rw [checkGuests_apply]
  split_ifs <;> simp

theorem sound_checkGuests (a b : String) (i : ℕ) : Sound (checkGuests a b i) := fun w => by
  rcases checkGuests_cases a b i w with h | ⟨e, h⟩ <;> rw [h] <;> exact .refl _

theorem sound_completeInit (t : Transport) (i : ℕ) : Sound (completeInit t i) := by
  have htry := Sound.tryCatch (x := do
      if t.status ≠ .ok then throw (.brokenConnection t.errorMessage)
      setUpState t)
    (Sound.ite ((sound_throw _).bind fun _ => sound_setUpState t) ((sound_pure _).bind fun _ => sound_setUpState t))
    fun e => (sound_finishConn i).bind fun _ => sound_throw e
  unfold completeInit
  exact (sound_obj i).bind fun c =>
    Sound.ite ((sound_throw _).bind fun _ => htry) ((sound_pure _).bind fun _ => htry)

theorem sound_init (t : Transport) (i : ℕ) : Sound (init t i) :=
  (sound_connectdb t i).bind fun _ => (sound_setUpNoticeHandlers t i).bind fun _ => sound_completeInit t i

theorem sound_connectNonblocking (t : Transport) : Sound (connectNonblocking t) := by
  refine sound_construct fun i => ?_
  have hlast : Sound (do
      setUpNoticeHandlers t i
      if t.status = .bad then
        finishConn i
        throw (.brokenConnection t.errorMessage)) := (sound_setUpNoticeHandlers t i).bind fun _ => Sound.ite
    ((sound_finishConn i).bind fun _ => sound_throw (.brokenConnection t.errorMessage)) (sound_pure _)
  exact (sound_connectdb t i).bind fun _ => (sound_obj i).bind fun _ =>
    Sound.ite ((sound_throw _).bind fun _ => hlast) ((sound_pure _).bind fun _ => hlast)

theorem sound_adoptRaw (t : Transport) : Sound (adoptRaw t) :=
  sound_construct fun i => (sound_takeFresh i).bind fun _ => sound_setUpNoticeHandlers t i

theorem sound_closeObject (name : ℕ → String) (f : CloseFaults) (i : ℕ) :
    Sound (closeObject name f i) := fun w => by
  unfold closeObject
  cases hc : (w.objects i).conn with
  | none =>
    rw [close_without_conn name f _ hc]
    exact .of_eq (by ext1 <;> simp [hc])
  | some pg =>
    cases hr : close name f ⟨w.objects i, w.hubs, [], []⟩ with
    | ok u s' =>
      obtain ⟨hconn, -, -, ns, hlog, hns⟩ := close_returns name f _ s' pg hc hr
      exact .single_eq (.release _ i pg hc) (by ext1 <;> simp [hconn, hlog, finishedBy_notices hns, finishedBy])
    | error e s' =>
      obtain ⟨hconn, ns, hlog, hns⟩ := close_throws name f _ s' e hr
      exact .single_eq (.drop _ i) (by ext1 <;> simp [hconn, hlog, finishedBy_notices hns])

theorem checkMovable_cases (i : ℕ) (w : World) :
    checkMovable i w = .ok () w ∨ ∃ e, checkMovable i w = .error e w := checkGuests_cases _ _ i w

theorem checkOverwritable_cases (i : ℕ) (w : World) :
    checkOverwritable i w = .ok () w ∨ ∃ e, checkOverwritable i w = .error e w :=
  checkGuests_cases _ _ i w

theorem moveMembers_owners (src i : ℕ) (w : World) :
    ∃ w', moveMembers src i w = .ok () w' ∧
      w'.owners = { w.owners with holds := Function.update w.owners.holds i (w.objects src).conn } :=
  ⟨_, rfl, by ext1 <;> simp [moveMembers, obj, modifyObj]⟩

theorem sound_moveConstruct (src : ℕ) : Sound (moveConstruct src) := by
  have halloc (w : World) : Moves w.owners w.alloc.owners := .single_eq (.drop _ _) (alloc_owners w).symm
  refine sound_construct_of (fun w w' h => ?_) (fun w e w' h => ?_)
  all_goals
    obtain ⟨w₂, hm, hmo⟩ := moveMembers_owners src w.nextObject w.alloc
    rcases checkMovable_cases src w₂ with hc | ⟨e, hc⟩ <;>
      simp only [bind_apply, hm, hc, setConn, modifyObj, modify_apply] at h <;> cases h
  · -- the check passes: the handle moves to the new object
    refine (halloc w).trans (.single_eq (.transfer _ src w.nextObject) ?_)
    rw [owners_update, hmo]
    rfl
  · -- it fails: destroying the new object undoes the copy
    refine (halloc w).trans (.of_eq ?_)
    rw [destroy_owners, hmo]
    ext1 <;> simp [alloc_owners]

theorem sound_moveAssign (name : ℕ → String) (f : CloseFaults) (tgt src : ℕ) :
    Sound (moveAssign name f tgt src) :=
  (sound_checkGuests _ _ tgt).bind fun _ => (sound_checkGuests _ _ src).bind fun _ =>
    (sound_closeObject name f tgt).bind fun _ => (sound_exchangeConn tgt src).bind fun _ =>
    (sound_obj src).bind fun _ => (sound_modifyObj tgt fun _ => by rfl).bind fun _ =>
    (sound_obj src).bind fun _ => (sound_modifyObj src fun _ => by rfl).bind fun _ =>
    (sound_modifyObj tgt fun _ => by rfl).bind fun _ => (sound_modifyObj tgt fun _ => by rfl).bind fun _ =>
    (sound_obj src).bind fun _ => (sound_modifyObj src fun _ => by rfl).bind fun _ =>
    sound_modifyObj tgt fun _ => by rfl

theorem sound_produce (t : Transport) (done : Bool) (i : ℕ) : Sound (produce t done i) := by
  unfold produce
  dsimp only
  split <;> refine Sound.bind (by first | exact sound_throw _ | exact sound_pure _) fun _ =>
    (sound_completeInit t i).bind fun _ => sound_moveConstruct i

theorem LifeOp.sound (op : LifeOp) (w : World) : Moves w.owners (op.apply w).owners := by
  cases op with
  | connect t => exact sound_construct (sound_init t) w
  | connectNonblocking t => exact sound_connectNonblocking t w
  | adopt t => exact sound_adoptRaw t w
  | moveConstruct src => exact sound_moveConstruct src w
  | moveAssign name f tgt src => exact sound_moveAssign name f tgt src w
  | close name f i => exact sound_closeObject name f i w
  | produce t done i => exact sound_produce t done i w

theorem runLife_moves (ops : List LifeOp) (w : World) : Moves w.owners (runLife ops w).owners := by
  induction ops generalizing w with
  | nil => exact .refl _
  | cons op ops ih => exact (op.sound w).trans (ih _)

/-- In every configuration reachable from no connection objects by any
sequence of constructions, moves, closes and `produce` calls, returning or
throwing: no two objects hold the same `PGconn`, no object holds a finished
one, and no `PGconn` is finished twice. -/
theorem pgconn_single_owner (ops : List LifeOp) :
    (∀ i j pg, ((runLife ops World.initial).objects i).conn = some pg →
      ((runLife ops World.initial).objects j).conn = some pg → i = j) ∧
    (∀ i pg, ((runLife ops World.initial).objects i).conn = some pg →
      pg ∉ (runLife ops World.initial).finished) ∧
    (runLife ops World.initial).finished.Nodup := by
  have hv : (runLife ops World.initial).owners.Valid :=
    (runLife_moves ops World.initial).valid Owners.initial_valid
  exact ⟨hv.exclusive, hv.live, hv.once⟩

end Pqxx.Lifecycle
