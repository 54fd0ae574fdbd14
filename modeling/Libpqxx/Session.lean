import Libpqxx.AdornName
import Libpqxx.Establish
import Libpqxx.Handles

/-!
# Names are unique within a session

A `PGconn`'s session runs through every connection object that holds it in
turn, and the move constructor and move assignment hand `m_unique_id` over
with the `PGconn`. Every lifecycle operation, returning or throwing, carries
the counters along: each `PGconn` held afterwards is fresh, or was held before
by an object whose counter was no larger. So the ids `adorn_name` uses in one
session only grow, and since a name determines its id, no name repeats.
-/

set_option autoImplicit false

namespace Pqxx.Lifecycle

open Close Ownership

def CarriesIds (w w' : World) : Prop :=
  w.nextConn ≤ w'.nextConn ∧ ∀ j pg, (w'.objects j).conn = some pg →
    w.nextConn ≤ pg ∨ ∃ i, (w.objects i).conn = some pg ∧ (w.objects i).uniqueId ≤ (w'.objects j).uniqueId

theorem CarriesIds.refl (w : World) : CarriesIds w w := ⟨le_rfl, fun j _ h => .inr ⟨j, h, le_rfl⟩⟩

theorem CarriesIds.trans {w₁ w₂ w₃ : World} (h₁ : CarriesIds w₁ w₂) (h₂ : CarriesIds w₂ w₃) :
    CarriesIds w₁ w₃ := by
  refine ⟨h₁.1.trans h₂.1, fun j pg h => ?_⟩
  rcases h₂.2 j pg h with hf | ⟨i, hi, hle⟩
  · exact .inl (h₁.1.trans hf)
  · rcases h₁.2 i pg hi with hf | ⟨k, hk, hle'⟩
    · exact .inl hf
    · exact .inr ⟨k, hk, hle'.trans hle⟩

theorem carries_of_sources {w w' : World} (hn : w.nextConn = w'.nextConn)
    (h : ∀ j, (w'.objects j).conn = none ∨
      ∃ i, (w'.objects j).conn = (w.objects i).conn ∧ (w.objects i).uniqueId ≤ (w'.objects j).uniqueId) :
    CarriesIds w w' := by
  refine ⟨hn.le, fun j pg hj => .inr ?_⟩
  rcases h j with h | ⟨i, hc, hle⟩
  · rw [h] at hj; cases hj
  · exact ⟨i, hc ▸ hj, hle⟩

def Keeps {α : Type} (x : W α) : Prop := ∀ w, CarriesIds w (final (x w))

section Combinators

variable {α β : Type}

theorem keeps_pure (a : α) : Keeps (pure a : W α) := CarriesIds.refl

theorem keeps_throw (e : Error) : Keeps (throw e : W α) := CarriesIds.refl

theorem Keeps.bind {x : W α} {f : α → W β} (hx : Keeps x) (hf : ∀ a, Keeps (f a)) : Keeps (x >>= f) := by
  intro w
  have h := hx w
  rw [bind_apply]
  cases hxw : x w with
  | ok a w₁ => rw [hxw] at h; exact h.trans (hf a w₁)
  | error e w₁ => rw [hxw] at h; exact h

theorem Keeps.tryCatch {x : W α} {h : Error → W α} (hx : Keeps x) (hh : ∀ e, Keeps (h e)) :
    Keeps (tryCatch x h) := by
  intro w
  have h₁ := hx w
  rw [tryCatch_apply]
  cases hxw : x w with
  | ok a w₁ => rw [hxw] at h₁; exact h₁
  | error e w₁ => rw [hxw] at h₁; exact h₁.trans (hh e w₁)

theorem Keeps.ite {c : Prop} [Decidable c] {x y : W α} (hx : Keeps x) (hy : Keeps y) :
    Keeps (if c then x else y) := by
  split <;> assumption

end Combinators

theorem keeps_of_objects {α : Type} {x : W α}
    (h : ∀ w, (final (x w)).objects = w.objects ∧ (final (x w)).nextConn = w.nextConn) : Keeps x :=
  fun w => carries_of_sources (h w).2.symm fun j => .inr ⟨j, by rw [(h w).1], by rw [(h w).1]⟩

theorem keeps_modifyObj (i : ℕ) {f : Conn → Conn}
    (hf : ∀ c, (f c).conn = none ∨ ((f c).conn = c.conn ∧ c.uniqueId ≤ (f c).uniqueId)) :
    Keeps (modifyObj i f) := fun w => by
  refine carries_of_sources rfl fun j => ?_
  by_cases hj : j = i
  · subst hj
    rcases hf (w.objects j) with h | ⟨hc, hle⟩
    · exact .inl (by simpa [modifyObj] using h)
    · exact .inr ⟨j, by simpa [modifyObj] using hc, by simpa [modifyObj] using hle⟩
  · have h : (final (modifyObj i f w)).objects j = w.objects j := by simp [modifyObj, Function.update_noteq hj]
    exact .inr ⟨j, by rw [h], by rw [h]⟩

theorem keeps_setConn_none (i : ℕ) : Keeps (setConn i none) := keeps_modifyObj i fun _ => .inl rfl

theorem keeps_takeFresh (i : ℕ) : Keeps (takeFresh i) := fun w => by
  refine ⟨Nat.le_succ _, fun j pg hj => ?_⟩
  simp only [takeFresh, setConn, modifyObj, newPGconn, bind_apply, modifyGet_apply, modify_apply, final_ok,
    Function.update_apply] at hj ⊢
  split_ifs at hj with h
  · cases hj; exact .inl le_rfl
  · exact .inr ⟨j, hj, by simp [h]⟩

theorem keeps_finishConn (i : ℕ) : Keeps (finishConn i) := by
  unfold finishConn
  refine Keeps.bind (keeps_of_objects fun _ => ⟨rfl, rfl⟩) fun c => ?_
  dsimp only
  split <;> exact Keeps.bind (keeps_of_objects fun _ => ⟨rfl, rfl⟩) fun _ => keeps_setConn_none i

theorem keeps_construct {body : ℕ → W Unit} (hb : ∀ i, Keeps (body i)) : Keeps (construct body) := fun w => by
  have hclear (w : World) (i : ℕ) (w' : World) (ho : w'.objects = Function.update w.objects i blank)
      (hn : w.nextConn = w'.nextConn) : CarriesIds w w' := carries_of_sources hn fun j => by
    by_cases hj : j = i
    · exact .inl (by simp [ho, hj, blank])
    · exact .inr ⟨j, by simp [ho, Function.update_noteq hj], by simp [ho, Function.update_noteq hj]⟩
  have halloc := hclear w w.nextObject w.alloc rfl rfl
  rw [construct_apply]
  cases h : body w.nextObject w.alloc with
  | ok _ w' => simpa [h] using halloc.trans (hb w.nextObject w.alloc)
  | error e w' =>
    have hbody := halloc.trans (hb w.nextObject w.alloc)
    rw [h, final_error] at hbody
    exact hbody.trans (hclear w' w.nextObject _ rfl rfl)

theorem keeps_closeObject (name : ℕ → String) (f : CloseFaults) (i : ℕ) : Keeps (closeObject name f i) :=
  fun w => by
  have hframe := (closeObject_frame name f i w).1
  have hnull : ((final (closeObject name f i w)).objects i).conn = none := by
    have h := close_conn_null name f ⟨w.objects i, w.hubs, [], []⟩
    unfold closeObject
    cases hr : close name f ⟨w.objects i, w.hubs, [], []⟩ <;> rw [hr] at h <;> simpa using h
  have hn : (final (closeObject name f i w)).nextConn = w.nextConn := by
    unfold closeObject
    cases close name f ⟨w.objects i, w.hubs, [], []⟩ <;> rfl
  refine carries_of_sources hn.symm fun j => ?_
  by_cases hj : j = i
  · exact .inl (hj ▸ hnull)
  · exact .inr ⟨j, by rw [hframe j hj], by rw [hframe j hj]⟩

theorem keeps_same {α : Type} {x : W α} (h : ∀ w, final (x w) = w) : Keeps x :=
  fun w => by rw [h]; exact CarriesIds.refl w

theorem keeps_obj (i : ℕ) : Keeps (obj i) := keeps_same fun _ => rfl

theorem keeps_newHub : Keeps newHub := keeps_of_objects fun _ => ⟨rfl, rfl⟩

theorem keeps_setNoticeProcessor (pg : ℕ) (hub : Option ℕ) : Keeps (setNoticeProcessor pg hub) :=
  keeps_of_objects fun _ => ⟨rfl, rfl⟩

theorem keeps_setUpNoticeHandlers (t : Transport) (i : ℕ) : Keeps (setUpNoticeHandlers t i) := by
  have hjp : Keeps (do
      let c ← obj i
      if let some pg := c.conn then setNoticeProcessor pg c.noticeWaiters) :=
    (keeps_obj i).bind fun c => by
      split
      · exact keeps_setNoticeProcessor _ _
      · exact keeps_pure _
  have hhub : Keeps (do
      let hub ← newHub
      modifyObj i fun c => { c with noticeWaiters := some hub }
      let c ← obj i
      if let some pg := c.conn then setNoticeProcessor pg c.noticeWaiters) :=
    keeps_newHub.bind fun _ => (keeps_modifyObj i fun _ => .inr ⟨by rfl, by rfl⟩).bind fun _ => hjp
  unfold setUpNoticeHandlers
  exact (keeps_obj _).bind fun c => Keeps.ite
    (Keeps.ite ((keeps_throw _).bind fun _ => hhub) ((keeps_pure _).bind fun _ => hhub))
    ((keeps_pure _).bind fun _ => hjp)

theorem keeps_completeInit (t : Transport) (i : ℕ) : Keeps (completeInit t i) := by
  have hstate : Keeps (setUpState t) := keeps_same fun w => by
    rcases setUpState_spec t w with ⟨-, -, h⟩ | ⟨e, h⟩ <;> rw [h] <;> rfl
  have htry := Keeps.tryCatch (x := do
      if t.status ≠ .ok then throw (.brokenConnection t.errorMessage)
      setUpState t)
    (Keeps.ite ((keeps_throw _).bind fun _ => hstate) ((keeps_pure _).bind fun _ => hstate))
    fun e => (keeps_finishConn i).bind fun _ => keeps_throw e
  unfold completeInit
  exact (keeps_obj _).bind fun c =>
    Keeps.ite ((keeps_throw _).bind fun _ => htry) ((keeps_pure _).bind fun _ => htry)

theorem keeps_connectdb (t : Transport) (i : ℕ) : Keeps (connectdb t i) :=
  Keeps.ite (keeps_takeFresh i) (keeps_setConn_none i)

theorem keeps_connectNonblocking (t : Transport) : Keeps (connectNonblocking t) := by
  refine keeps_construct fun i => ?_
  have hlast : Keeps (do
      setUpNoticeHandlers t i
      if t.status = .bad then
        finishConn i
        throw (.brokenConnection t.errorMessage)) := (keeps_setUpNoticeHandlers t i).bind fun _ => Keeps.ite
    ((keeps_finishConn i).bind fun _ => keeps_throw (.brokenConnection t.errorMessage)) (keeps_pure _)
  exact (keeps_connectdb t i).bind fun _ => (keeps_obj _).bind fun _ =>
    Keeps.ite ((keeps_throw _).bind fun _ => hlast) ((keeps_pure _).bind fun _ => hlast)

theorem keeps_checkGuests (a b : String) (i : ℕ) : Keeps (checkGuests a b i) := keeps_same fun w => by
  rcases checkGuests_cases a b i w with h | ⟨e, h⟩ <;> rw [h] <;> rfl

theorem keeps_moveMembers (src i : ℕ) : Keeps (moveMembers src i) := fun w => by
  refine carries_of_sources rfl fun j => .inr ?_
  simp only [moveMembers, obj, modifyObj, bind_apply, get_apply, pure_apply, modify_apply, final_ok,
    Function.update_apply]
  split_ifs
  · exact ⟨src, rfl, le_rfl⟩
  · exact ⟨src, rfl, le_rfl⟩
  · exact ⟨src, rfl, le_rfl⟩
  · exact ⟨j, rfl, le_rfl⟩

theorem keeps_moveConstruct (src : ℕ) : Keeps (moveConstruct src) :=
  keeps_construct fun i => (keeps_moveMembers src i).bind fun _ =>
    (keeps_checkGuests _ _ src).bind fun _ => keeps_setConn_none src

theorem keeps_exchange_id {α : Type} (tgt src : ℕ) {k : W α} (hk : Keeps k) :
    Keeps (do
      exchangeConn tgt src
      let id := (← obj src).uniqueId
      modifyObj tgt fun c => { c with uniqueId := id }
      k) := fun w => by
  simp only [exchangeConn, obj, setConn, modifyObj, bind_apply, get_apply, pure_apply, modify_apply]
  refine CarriesIds.trans ?_ (hk _)
  refine carries_of_sources rfl fun j => ?_
  simp only [Function.update_apply]
  split_ifs <;> first | exact .inl rfl | exact .inr ⟨src, rfl, le_rfl⟩ | exact .inr ⟨j, rfl, le_rfl⟩ |
    exact absurd ‹src = tgt›.symm ‹_›

theorem keeps_moveAssign (name : ℕ → String) (f : CloseFaults) (tgt src : ℕ) :
    Keeps (moveAssign name f tgt src) :=
  (keeps_checkGuests _ _ tgt).bind fun _ => (keeps_checkGuests _ _ src).bind fun _ =>
    (keeps_closeObject name f tgt).bind fun _ => keeps_exchange_id tgt src <|
    (keeps_obj src).bind fun _ => (keeps_modifyObj src fun _ => .inr ⟨by rfl, by rfl⟩).bind fun _ =>
    (keeps_modifyObj tgt fun _ => .inr ⟨by rfl, by rfl⟩).bind fun _ =>
    (keeps_modifyObj tgt fun _ => .inr ⟨by rfl, by rfl⟩).bind fun _ =>
    (keeps_obj src).bind fun _ => (keeps_modifyObj src fun _ => .inr ⟨by rfl, by rfl⟩).bind fun _ =>
    keeps_modifyObj tgt fun _ => .inr ⟨by rfl, by rfl⟩

theorem keeps_produce (t : Transport) (done : Bool) (i : ℕ) : Keeps (produce t done i) := by
  unfold produce
  dsimp only
  split <;> refine Keeps.bind (by first | exact keeps_throw _ | exact keeps_pure _) fun _ =>
    (keeps_completeInit t i).bind fun _ => keeps_moveConstruct i

theorem LifeOp.keeps (op : LifeOp) (w : World) : CarriesIds w (op.apply w) := by
  cases op with
  | connect t =>
    exact keeps_construct (fun i => (keeps_connectdb t i).bind fun _ =>
      (keeps_setUpNoticeHandlers t i).bind fun _ => keeps_completeInit t i) w
  | connectNonblocking t => exact keeps_connectNonblocking t w
  | adopt t =>
    exact keeps_construct (fun i => (keeps_takeFresh i).bind fun _ => keeps_setUpNoticeHandlers t i) w
  | moveConstruct src => exact keeps_moveConstruct src w
  | moveAssign name f tgt src => exact keeps_moveAssign name f tgt src w
  | close name f i => exact keeps_closeObject name f i w
  | produce t done i => exact keeps_produce t done i w

inductive SessionOp
  | life (op : LifeOp)
  | adorn (i : ℕ) (n : String)

def SessionOp.step (st : World × List (ℕ × String)) : SessionOp → World × List (ℕ × String)
  | .life op => (op.apply st.1, st.2)
  | .adorn i n =>
    match adornName i n st.1 with
    | .ok s w' => (w', st.2 ++ ((st.1.objects i).conn.map fun pg => (pg, s)).toList)
    | .error _ w' => (w', st.2)

def runSession (ops : List SessionOp) : World × List (ℕ × String) :=
  ops.foldl SessionOp.step (World.initial, [])

def World.bumpId (w : World) (i : ℕ) : World :=
  { w with objects := Function.update w.objects i { w.objects i with uniqueId := (w.objects i).uniqueId + 1 } }

theorem adornName_apply (i : ℕ) (n : String) (w : World) :
    adornName i n w = .ok (adornedName n ((w.objects i).uniqueId + 1)) (w.bumpId i) := rfl

@[simp] theorem bumpId_conn (w : World) (i j : ℕ) : ((w.bumpId i).objects j).conn = (w.objects j).conn := by
  by_cases h : j = i
  · subst h; simp [World.bumpId]
  · simp [World.bumpId, Function.update_noteq h]

theorem bumpId_uniqueId (w : World) (i j : ℕ) :
    ((w.bumpId i).objects j).uniqueId = if j = i then (w.objects i).uniqueId + 1 else (w.objects j).uniqueId := by
  split_ifs with h
  · subst h; simp [World.bumpId]
  · simp [World.bumpId, Function.update_noteq h]

theorem uniqueId_le_bumpId (w : World) (i j : ℕ) :
    (w.objects j).uniqueId ≤ ((w.bumpId i).objects j).uniqueId := by
  rw [bumpId_uniqueId]
  split_ifs with h <;> simp [h]

theorem bumpId_owners (w : World) (i : ℕ) : (w.bumpId i).owners = w.owners := by
  ext1 <;> simp [World.bumpId]

/-- What the names returned so far satisfy: none is repeated; each belongs to
a `PGconn` already given out; each was built from an id at most the counter of
the object now holding its `PGconn`; and each `PGconn` has one holder at most. -/
structure NamesInv (st : World × List (ℕ × String)) : Prop where
  nodup : st.2.Nodup
  issued : ∀ pg s, (pg, s) ∈ st.2 → pg < st.1.nextConn
  below : ∀ i pg s n id, (st.1.objects i).conn = some pg → (pg, s) ∈ st.2 → s = adornedName n id →
    id ≤ (st.1.objects i).uniqueId
  owners : st.1.owners.Valid

theorem NamesInv.initial : NamesInv (World.initial, []) where
  nodup := List.nodup_nil
  issued _ _ h := by cases h
  below _ _ _ _ _ _ h := by cases h
  owners := Owners.initial_valid

section Step

variable {w : World} {names : List (ℕ × String)}

theorem NamesInv.life (h : NamesInv (w, names)) (op : LifeOp) : NamesInv (op.apply w, names) where
  nodup := h.nodup
  issued pg s hs := lt_of_lt_of_le (h.issued pg s hs) (op.keeps w).1
  below j pg s n id hj hs he := by
    rcases (op.keeps w).2 j pg hj with hf | ⟨i, hi, hle⟩
    · exact absurd (h.issued pg s hs) (not_lt.2 hf)
    · exact (h.below i pg s n id hi hs he).trans hle
  owners := (op.sound w).valid h.owners

theorem NamesInv.adorn (h : NamesInv (w, names)) (i : ℕ) (n : String) :
    NamesInv (SessionOp.step (w, names) (.adorn i n)) := by
  have hb : ∀ j pg s m id, (w.objects j).conn = some pg → (pg, s) ∈ names → s = adornedName m id →
      id ≤ (w.objects j).uniqueId := h.below
  have hbelow_old : ∀ j pg s m id, ((w.bumpId i).objects j).conn = some pg → (pg, s) ∈ names →
      s = adornedName m id → id ≤ ((w.bumpId i).objects j).uniqueId := fun j pg s m id hj hs he =>
    (hb j pg s m id (by rwa [bumpId_conn] at hj) hs he).trans (uniqueId_le_bumpId w i j)
  simp only [SessionOp.step, adornName_apply]
  cases hc : (w.objects i).conn with
  | none =>
    simp only [Option.map_none', Option.toList_none, List.append_nil]
    exact ⟨h.nodup, h.issued, hbelow_old, by rw [bumpId_owners]; exact h.owners⟩
  | some pg =>
    simp only [Option.map_some', Option.toList_some]
    have hnew : (pg, adornedName n ((w.objects i).uniqueId + 1)) ∉ names := fun hm =>
      absurd (hb i pg _ n _ hc hm rfl) (by omega)
    refine ⟨List.nodup_append.2 ⟨h.nodup, List.nodup_singleton _, ?_⟩, fun q s hs => ?_,
      fun j q s m id hj hs he => ?_, by rw [bumpId_owners]; exact h.owners⟩
    · simpa [List.disjoint_singleton] using hnew
    · rcases List.mem_append.1 hs with hs | hs
      · exact h.issued q s hs
      · cases List.mem_singleton.1 hs
        exact h.owners.held_issued i _ hc
    · rcases List.mem_append.1 hs with hs | hs
      · exact hbelow_old j q s m id hj hs he
      · obtain ⟨rfl, rfl⟩ := Prod.mk.inj (List.mem_singleton.1 hs)
        rw [bumpId_conn] at hj
        obtain rfl := h.owners.exclusive j i _ hj hc
        rw [← adornedName_id he, bumpId_uniqueId, if_pos rfl]

end Step

theorem NamesInv.step {st : World × List (ℕ × String)} (h : NamesInv st) (op : SessionOp) :
    NamesInv (SessionOp.step st op) := by
  obtain ⟨w, names⟩ := st
  cases op with
  | life op => exact h.life op
  | adorn i n => exact h.adorn i n

theorem runSession_inv (ops : List SessionOp) : NamesInv (runSession ops) := by
  suffices ∀ st, NamesInv st → NamesInv (ops.foldl SessionOp.step st) from this _ NamesInv.initial
  induction ops with
  | nil => exact fun _ h => h
  | cons op ops ih => exact fun st h => ih _ (h.step op)

/-- Within the session of one `PGconn`, `adorn_name` never returns a name
twice: over any run of constructions, moves, closes, `produce` calls and
`adorn_name` calls with any base names, returning or throwing, the names
returned by the objects holding a given `PGconn` are pairwise distinct. -/
theorem adorn_name_unique_in_session (ops : List SessionOp) (pg : ℕ) :
    (((runSession ops).2.filter fun e => e.1 = pg).map Prod.snd).Nodup := by
  refine ((runSession_inv ops).nodup.filter _).map_on fun x hx y hy hxy => Prod.ext ?_ hxy
  rw [of_decide_eq_true (List.mem_filter.1 hx).2, of_decide_eq_true (List.mem_filter.1 hy).2]

example : (runSession [.life (.connect modernServer), .adorn 0 "", .adorn 0 "x", .life (.moveConstruct 0),
    .adorn 1 "x"]).2 = [(0, "x1"), (0, "x_2"), (0, "x_3")] := by decide

end Pqxx.Lifecycle
