import Libpqxx.Moves

/-!
# Connection establishment

The blocking constructors' `init`, the non-blocking constructor and
`connecting::produce`, over every answer libpq and the allocator can give.
When every allocation succeeds, each call either returns with the connection
usable, or throws with `m_conn` null after passing each `PGconn` it obtained
to `PQfinish` once. Each step is described once by a lemma about what it
returns, and the calls are composed from those lemmas.
-/

set_option autoImplicit false

namespace Pqxx.Lifecycle

def obtainedBy (t : Transport) (w : World) : Option ℕ := if t.connects then some w.nextConn else none

theorem connectdb_spec (t : Transport) (i : ℕ) (w : World) :
    ∃ w₁, connectdb t i w = .ok () w₁ ∧ (w₁.objects i).conn = obtainedBy t w ∧
      w₁.finished = w.finished := by
  unfold connectdb obtainedBy
  cases t.connects <;> simp [takeFresh, setConn, modifyObj, newPGconn]

theorem setUpNoticeHandlers_spec (t : Transport) (ht : t.allocates = true) (i : ℕ) (w : World) :
    ∃ w₁, setUpNoticeHandlers t i w = .ok () w₁ ∧ (w₁.objects i).conn = (w.objects i).conn ∧
      w₁.finished = w.finished := by
  cases hn : (w.objects i).noticeWaiters <;> cases hc : (w.objects i).conn <;>
    simp [setUpNoticeHandlers, obj, ht, hn, hc, newHub, modifyObj, setNoticeProcessor]

theorem finishConn_spec (i : ℕ) (w : World) :
    ∃ w₁, finishConn i w = .ok () w₁ ∧ (w₁.objects i).conn = none ∧
      w₁.finished = w.finished ++ (w.objects i).conn.toList := by
  cases hc : (w.objects i).conn <;> simp [finishConn, obj, hc, pqFinish, setConn, modifyObj]

theorem setUpState_spec (t : Transport) (w : World) :
    (3 ≤ t.protocolVersion ∧ 90000 < t.serverVersion ∧ setUpState t w = .ok () w) ∨
      ∃ e, setUpState t w = .error e w := by
  unfold setUpState
  by_cases hp : t.protocolVersion < 3
  · right; by_cases h0 : t.protocolVersion = 0 <;> simp [hp, h0]
  by_cases hs : t.serverVersion ≤ 90000
  · right; simp [hp, hs]
  left; refine ⟨by omega, by omega, ?_⟩
  simp [hp, hs]

theorem completeInit_spec (t : Transport) (i : ℕ) (w : World) :
    (∃ pg, (w.objects i).conn = some pg ∧ t.status = .ok ∧ 3 ≤ t.protocolVersion ∧
      90000 < t.serverVersion ∧ completeInit t i w = .ok () w) ∨
    ∃ e w', completeInit t i w = .error e w' ∧ (w'.objects i).conn = none ∧
      w'.finished = w.finished ++ (w.objects i).conn.toList := by
  obtain ⟨w₁, hf, hc₁, hfin⟩ := finishConn_spec i w
  cases hc : (w.objects i).conn with
  | none => exact .inr ⟨.badAlloc, w, by simp [completeInit, obj, hc], hc, by simp⟩
  | some pg =>
    rw [hc] at hfin
    by_cases hs : t.status = .ok
    · rcases setUpState_spec t w with ⟨hp, hv, hu⟩ | ⟨e, he⟩
      · exact .inl ⟨pg, rfl, hs, hp, hv, by simp [completeInit, obj, hc, hs, hu]⟩
      · exact .inr ⟨e, w₁, by simp [completeInit, obj, hc, hs, he, hf], hc₁, hfin⟩
    · exact .inr ⟨.brokenConnection t.errorMessage, w₁, by simp [completeInit, obj, hc, hs, hf], hc₁, hfin⟩

theorem moveConstruct_spec {src : ℕ} {w : World} (hsrc : src ≠ w.nextObject)
    (htr : (w.objects src).trans = none) (hrc : (w.objects src).receivers = []) :
    ∃ w', moveConstruct src w = .ok w.nextObject w' ∧ (w'.objects w.nextObject).conn = (w.objects src).conn ∧
      (w'.objects src).conn = none ∧ w'.finished = w.finished := by
  rw [moveConstruct, construct_apply]
  simp [moveMembers, obj, modifyObj, setConn, checkMovable, checkGuests_apply, World.alloc,
    Function.update_noteq hsrc, Function.update_noteq (Ne.symm hsrc), htr, hrc]

section Establish

variable (t : Transport) (ht : t.allocates = true)
include ht

theorem init_eq (i : ℕ) (w : World) :
    ∃ w₂, init t i w = completeInit t i w₂ ∧ (w₂.objects i).conn = obtainedBy t w ∧
      w₂.finished = w.finished := by
  obtain ⟨w₁, h₁, hc₁, hf₁⟩ := connectdb_spec t i w
  obtain ⟨w₂, h₂, hc₂, hf₂⟩ := setUpNoticeHandlers_spec t ht i w₁
  exact ⟨w₂, by simp [init, h₁, h₂], hc₂.trans hc₁, hf₂.trans hf₁⟩

theorem init_settles (i : ℕ) (w : World) :
    (∀ w', init t i w = .ok () w' → (w'.objects i).conn = obtainedBy t w ∧ (obtainedBy t w).isSome ∧
      t.status = .ok ∧ 3 ≤ t.protocolVersion ∧ 90000 < t.serverVersion ∧ w'.finished = w.finished) ∧
    (∀ e w', init t i w = .error e w' →
      (w'.objects i).conn = none ∧ w'.finished = w.finished ++ (obtainedBy t w).toList) := by
  obtain ⟨w₂, he, hc, hf⟩ := init_eq t ht i w
  rw [he]
  rcases completeInit_spec t i w₂ with ⟨pg, hpg, hs, hp, hv, hok⟩ | ⟨e, w', herr, hc', hf'⟩
  · rw [hok]
    refine ⟨fun w' h => ?_, fun _ _ h => (nomatch h)⟩
    cases h
    exact ⟨hc, by rw [← hc, hpg]; rfl, hs, hp, hv, hf⟩
  · rw [herr]
    refine ⟨fun _ h => (nomatch h), fun _ _ h => ?_⟩
    cases h
    rw [hf', hf, hc]
    exact ⟨hc', rfl⟩

theorem connectNonblocking_settles (w : World) :
    (∀ j w', connectNonblocking t w = .ok j w' → (w'.objects j).conn = obtainedBy t w ∧
      (obtainedBy t w).isSome ∧ t.status ≠ .bad ∧ w'.finished = w.finished) ∧
    (∀ e w', connectNonblocking t w = .error e w' →
      (w'.objects w.nextObject).conn = none ∧ w'.finished = w.finished ++ (obtainedBy t w).toList) := by
  rw [connectNonblocking, construct_apply]
  obtain ⟨w₁, h₁, hc₁, hf₁⟩ := connectdb_spec t w.nextObject w.alloc
  obtain ⟨w₂, h₂, hc₂, hf₂⟩ := setUpNoticeHandlers_spec t ht w.nextObject w₁
  obtain ⟨w₃, h₃, hc₃, hf₃⟩ := finishConn_spec w.nextObject w₂
  have ho : obtainedBy t w.alloc = obtainedBy t w := rfl
  have hfa : w.alloc.finished = w.finished := rfl
  rw [ho] at hc₁
  rw [hfa] at hf₁
  cases hob : obtainedBy t w with
  | none => simp [obj, h₁, hc₁, hob, World.destroy, blank, hf₁]
  | some pg =>
    by_cases hb : t.status = .bad
    · simp [obj, h₁, hc₁, hob, h₂, hb, h₃, World.destroy, blank, hf₃, hf₂, hf₁, hc₂]
    · simp [obj, h₁, hc₁, hob, h₂, hb, hc₂, hf₂, hf₁]

end Establish

theorem produce_settles (t : Transport) (i : ℕ) (w : World) (hi : i ≠ w.nextObject)
    (htr : (w.objects i).trans = none) (hrc : (w.objects i).receivers = []) :
    produce t false i w = .error (.usageError "Tried to produce a nonblocking connection before it was done.") w ∧
    (∀ j w', produce t true i w = .ok j w' → (w'.objects j).conn = (w.objects i).conn ∧
      (w.objects i).conn.isSome ∧ t.status = .ok ∧ 3 ≤ t.protocolVersion ∧ 90000 < t.serverVersion ∧
      (w'.objects i).conn = none ∧ w'.finished = w.finished) ∧
    (∀ e w', produce t true i w = .error e w' →
      (w'.objects i).conn = none ∧ w'.finished = w.finished ++ (w.objects i).conn.toList) := by
  refine ⟨rfl, ?_⟩
  simp only [produce, Bool.not_true, Bool.false_eq_true, if_false, bind_apply, pure_apply]
  rcases completeInit_spec t i w with ⟨pg, hpg, hs, hp, hv, hok⟩ | ⟨e, w', herr, hc', hf'⟩
  · obtain ⟨w', hm, hcj, hci, hf⟩ := moveConstruct_spec hi htr hrc
    simp only [hok, hm]
    refine ⟨fun j w'' h => ?_, fun _ _ h => (nomatch h)⟩
    cases h
    exact ⟨hcj, by rw [hpg]; rfl, hs, hp, hv, hci, hf⟩
  · simp only [herr]
    refine ⟨fun _ _ h => (nomatch h), fun _ _ h => ?_⟩
    cases h
    exact ⟨hc', hf'⟩

/-- With every allocation succeeding, establishing a connection ends one of
two ways. `init` and a `produce` after `done()` return with the connection
open on protocol 3 or later and a server newer than 9.0, or throw with
`m_conn` null. The non-blocking constructor returns with a `PGconn` whose
status is not `CONNECTION_BAD`, or throws with `m_conn` null. A throw has
passed each `PGconn` obtained on the way to `PQfinish` once, and a return has
finished none. A `produce` before `done()` throws `usage_error` and changes
nothing. -/
theorem connection_establishment_settles (t : Transport) (ht : t.allocates = true) (w : World) (i c : ℕ)
    (hc : c ≠ w.nextObject) (htr : (w.objects c).trans = none) (hrc : (w.objects c).receivers = []) :
    ((∀ w', init t i w = .ok () w' → (w'.objects i).conn = obtainedBy t w ∧ (obtainedBy t w).isSome ∧
        t.status = .ok ∧ 3 ≤ t.protocolVersion ∧ 90000 < t.serverVersion ∧ w'.finished = w.finished) ∧
      (∀ e w', init t i w = .error e w' →
        (w'.objects i).conn = none ∧ w'.finished = w.finished ++ (obtainedBy t w).toList)) ∧
    ((∀ j w', connectNonblocking t w = .ok j w' → (w'.objects j).conn = obtainedBy t w ∧
        (obtainedBy t w).isSome ∧ t.status ≠ .bad ∧ w'.finished = w.finished) ∧
      (∀ e w', connectNonblocking t w = .error e w' →
        (w'.objects w.nextObject).conn = none ∧ w'.finished = w.finished ++ (obtainedBy t w).toList)) ∧
    (produce t false c w =
        .error (.usageError "Tried to produce a nonblocking connection before it was done.") w ∧
      (∀ j w', produce t true c w = .ok j w' → (w'.objects j).conn = (w.objects c).conn ∧
        (w.objects c).conn.isSome ∧ t.status = .ok ∧ 3 ≤ t.protocolVersion ∧ 90000 < t.serverVersion ∧
        (w'.objects c).conn = none ∧ w'.finished = w.finished) ∧
      (∀ e w', produce t true c w = .error e w' →
        (w'.objects c).conn = none ∧ w'.finished = w.finished ++ (w.objects c).conn.toList)) :=
  ⟨init_settles t ht i w, connectNonblocking_settles t ht w, produce_settles t c w hc htr hrc⟩

def modernServer : Transport := ⟨true, true, .ok, 3, 160000, ""⟩

theorem connection_establishment_modern_server :
    modernServer.allocates = true ∧ 0 ≠ idleObject.nextObject ∧ (idleObject.objects 0).trans = none ∧
      (idleObject.objects 0).receivers = [] ∧
    ((∀ w', init modernServer 0 idleObject = .ok () w' →
        (w'.objects 0).conn = obtainedBy modernServer idleObject ∧ (obtainedBy modernServer idleObject).isSome ∧
        modernServer.status = .ok ∧ 3 ≤ modernServer.protocolVersion ∧ 90000 < modernServer.serverVersion ∧
        w'.finished = idleObject.finished) ∧
      (∀ e w', init modernServer 0 idleObject = .error e w' → (w'.objects 0).conn = none ∧
        w'.finished = idleObject.finished ++ (obtainedBy modernServer idleObject).toList)) ∧
    ((∀ j w', connectNonblocking modernServer idleObject = .ok j w' →
        (w'.objects j).conn = obtainedBy modernServer idleObject ∧ (obtainedBy modernServer idleObject).isSome ∧
        modernServer.status ≠ .bad ∧ w'.finished = idleObject.finished) ∧
      (∀ e w', connectNonblocking modernServer idleObject = .error e w' →
        (w'.objects idleObject.nextObject).conn = none ∧
        w'.finished = idleObject.finished ++ (obtainedBy modernServer idleObject).toList)) ∧
    (produce modernServer false 0 idleObject =
        .error (.usageError "Tried to produce a nonblocking connection before it was done.") idleObject ∧
      (∀ j w', produce modernServer true 0 idleObject = .ok j w' →
        (w'.objects j).conn = (idleObject.objects 0).conn ∧ (idleObject.objects 0).conn.isSome ∧
        modernServer.status = .ok ∧ 3 ≤ modernServer.protocolVersion ∧ 90000 < modernServer.serverVersion ∧
        (w'.objects 0).conn = none ∧ w'.finished = idleObject.finished) ∧
      (∀ e w', produce modernServer true 0 idleObject = .error e w' →
        (w'.objects 0).conn = none ∧ w'.finished = idleObject.finished ++ (idleObject.objects 0).conn.toList)) :=
  ⟨rfl, by decide, rfl, rfl,
    connection_establishment_settles modernServer rfl idleObject 0 0 (by decide) rfl rfl⟩

def hubAllocFails : Transport := ⟨true, false, .ok, 3, 160000, ""⟩

/-- When the hub allocation fails, `init` throws `bad_alloc` with `m_conn`
still holding `PGconn` 0, and the non-blocking constructor throws having
obtained `PGconn` 0; neither has called `PQfinish`. A `connecting` that is
not yet done refuses to produce and keeps its `PGconn`. -/
theorem establishment_throws_holding_pgconn :
    (∃ w', init hubAllocFails 0 World.initial = .error .badAlloc w' ∧ (w'.objects 0).conn = some 0 ∧
      w'.finished = []) ∧
    (∃ w', connectNonblocking hubAllocFails World.initial = .error .badAlloc w' ∧ w'.nextConn = 1 ∧
      w'.finished = []) ∧
    produce hubAllocFails false 0 idleObject =
      .error (.usageError "Tried to produce a nonblocking connection before it was done.") idleObject ∧
    (idleObject.objects 0).conn = some 0 :=
  ⟨⟨_, rfl, rfl, rfl⟩, ⟨_, rfl, rfl, rfl⟩, rfl, rfl⟩

end Pqxx.Lifecycle
