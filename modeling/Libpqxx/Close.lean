import Libpqxx.Connection

/-!
# Closing a connection

`close` does nothing on a connection without a `PGconn`. Otherwise it turns
an open transaction and outstanding receivers into notices, unregisters the
errorhandlers, finishes the `PGconn` and nulls `m_conn`. Two of its steps
can throw: formatting the notice about the transaction and copying the
errorhandler list. Its handler nulls `m_conn` and rethrows, without
`PQfinish`; `complete_init`'s handler calls `PQfinish` first.
-/

set_option autoImplicit false

namespace Pqxx.Close

open Notice

def registerErrorhandler (h : ℕ) : M Unit := do
  let some w := (← get).self.noticeWaiters | pure ()
  modify fun s => { s with hubs := Function.update s.hubs w ((s.hubs w).register h) }

def unregisterErrorhandler (h : ℕ) : M Unit := do
  let some w := (← get).self.noticeWaiters | pure ()
  modify fun s => { s with hubs := Function.update s.hubs w ((s.hubs w).unregister h) }

def unregisterAll : List ℕ → M Unit
  | [] => pure ()
  | h :: hs => do
    unregisterErrorhandler h
    unregisterAll hs

/-- The steps of `close` that can throw `bad_alloc`: formatting the notice
about an open transaction, and copying the errorhandler list. -/
structure CloseFaults where
  formatFails : Bool
  copyFails : Bool

def noticeOpenTransaction (name : ℕ → String) (f : CloseFaults) : M Unit := do
  let some t := (← get).self.trans | pure ()
  if f.formatFails then throw .badAlloc
  let what := describeObject "transaction" (name t)
  emit (.notice s!"Closing connection while {what} is still open.\n")

def dropReceivers : M Unit := do
  if !(← get).self.receivers.isEmpty then
    emit (.notice "Closing connection with outstanding receivers.\n")
    update fun c => { c with receivers := [] }

/-- The third: the errorhandler list is copied and each one unregistered,
newest first. Modelled from the spec: an errorhandler's `unregister` (in
`errorhandler.cxx`, absent here) calls `unregister_errorhandler` on the
connection it was registered with, taken to be this one. -/
def unregisterErrorhandlers (f : CloseFaults) : M Unit := do
  let some w := (← get).self.noticeWaiters | pure ()
  let old := ((← get).hubs w).errorhandlers
  if f.copyFails ∧ old ≠ [] then throw .badAlloc
  unregisterAll old.reverse

def close (name : ℕ → String) (f : CloseFaults) : M Unit := do
  let some pg := (← get).self.conn | pure ()
  tryCatch (do
      noticeOpenTransaction name f
      dropReceivers
      unregisterErrorhandlers f
      emit (.finish pg)
      update fun c => { c with conn := none })
    (fun e => do
      update fun c => { c with conn := none }
      throw e)

def closingInTransaction : Sys :=
  ⟨⟨some 0, some 0, HandlerMap.empty, [], some 1, 0⟩, fun _ => ⟨[], none⟩, [], []⟩

/-- When formatting the notice about the open transaction runs out of
memory, `close` throws with `m_conn` nulled and `PGconn` 0 never finished. -/
theorem close_throw_skips_finish :
    close (fun _ => "") ⟨true, false⟩ closingInTransaction =
      .error .badAlloc { closingInTransaction with self := { closingInTransaction.self with conn := none } } :=
  rfl

theorem unregisterAll_apply (hs : List ℕ) (s : Sys) (w : ℕ) (hw : s.self.noticeWaiters = some w) :
    unregisterAll hs s = .ok () { s with
      hubs := Function.update s.hubs w { s.hubs w with
        errorhandlers := (s.hubs w).errorhandlers.filter (· ∉ hs) } } := by
  induction hs generalizing s with
  | nil =>
    have : { s.hubs w with errorhandlers := (s.hubs w).errorhandlers } = s.hubs w := rfl
    simp [unregisterAll, this]
  | cons h hs ih =>
    simp only [unregisterAll, unregisterErrorhandler, bind_apply, get_apply, hw, modify_apply]
    rw [ih { s with hubs := Function.update s.hubs w ((s.hubs w).unregister h) } hw]
    congr
    funext v
    by_cases hv : v = w
    · subst hv
      simp only [Hub.unregister, Function.update_same, List.filter_filter]
      congr
      funext x
      simp [Bool.and_comm]
    · simp [Function.update, hv]

def NoticesAfter (s s' : Sys) : Prop :=
  ∃ ns, s'.log = s.log ++ ns ∧ ∀ x ∈ ns, ∃ m, x = .notice m

theorem NoticesAfter.refl (s : Sys) : NoticesAfter s s := ⟨[], by simp, by simp⟩

theorem NoticesAfter.trans {s₁ s₂ s₃ : Sys} (h₁ : NoticesAfter s₁ s₂) (h₂ : NoticesAfter s₂ s₃) :
    NoticesAfter s₁ s₃ := by
  obtain ⟨ns₁, hl₁, hn₁⟩ := h₁
  obtain ⟨ns₂, hl₂, hn₂⟩ := h₂
  refine ⟨ns₁ ++ ns₂, by simp [hl₂, hl₁], ?_⟩
  simp only [List.mem_append]
  rintro x (hx | hx)
  exacts [hn₁ x hx, hn₂ x hx]

theorem noticeOpenTransaction_ok {name : ℕ → String} {f : CloseFaults} {s s₁ : Sys} {u : Unit}
    (h : noticeOpenTransaction name f s = .ok u s₁) :
    s₁.self = s.self ∧ s₁.hubs = s.hubs ∧ NoticesAfter s s₁ := by
  simp only [noticeOpenTransaction, bind_apply, get_apply] at h
  cases ht : s.self.trans with
  | none => simp only [ht] at h; cases h; exact ⟨rfl, rfl, .refl s⟩
  | some t =>
    cases hf : f.formatFails <;>
      simp only [ht, hf, ↓reduceIte, Bool.false_eq_true, throw_apply, bind_apply, emit_apply] at h <;>
      cases h
    exact ⟨rfl, rfl, _, rfl, by simp⟩

theorem noticeOpenTransaction_error {name : ℕ → String} {f : CloseFaults} {s s₁ : Sys} {e : Error}
    (h : noticeOpenTransaction name f s = .error e s₁) : s₁ = s := by
  simp only [noticeOpenTransaction, bind_apply, get_apply] at h
  cases ht : s.self.trans with
  | none => simp only [ht] at h; cases h
  | some t =>
    cases hf : f.formatFails <;>
      simp only [ht, hf, ↓reduceIte, Bool.false_eq_true, throw_apply, bind_apply, emit_apply] at h <;>
      cases h
    rfl

theorem dropReceivers_ok {s s₁ : Sys} {u : Unit} (h : dropReceivers s = .ok u s₁) :
    s₁.self.conn = s.self.conn ∧ s₁.self.receivers = [] ∧
      s₁.self.noticeWaiters = s.self.noticeWaiters ∧ s₁.hubs = s.hubs ∧ NoticesAfter s s₁ := by
  simp only [dropReceivers, bind_apply, get_apply] at h
  split_ifs at h with hr
  · cases h; exact ⟨rfl, rfl, rfl, rfl, _, rfl, by simp⟩
  · cases h; exact ⟨rfl, by simpa using hr, rfl, rfl, .refl s⟩

theorem dropReceivers_ne_error {s s₁ : Sys} {e : Error} : dropReceivers s ≠ .error e s₁ := by
  unfold dropReceivers
  by_cases hr : s.self.receivers = [] <;> simp [hr]

theorem unregisterErrorhandlers_ok {f : CloseFaults} {s s₁ : Sys} {u : Unit}
    (h : unregisterErrorhandlers f s = .ok u s₁) :
    s₁.self = s.self ∧ s₁.log = s.log ∧
      ∀ w, s.self.noticeWaiters = some w → (s₁.hubs w).errorhandlers = [] := by
  simp only [unregisterErrorhandlers, bind_apply, get_apply] at h
  cases hw : s.self.noticeWaiters with
  | none => simp only [hw] at h; cases h; simp
  | some w =>
    simp only [hw, bind_apply, get_apply] at h
    split_ifs at h
    · cases h
    · simp only [bind_apply, pure_apply, unregisterAll_apply _ _ w hw] at h
      cases h
      refine ⟨rfl, rfl, ?_⟩
      rintro _ ⟨⟩
      simp [List.filter_eq_nil_iff]

theorem unregisterErrorhandlers_error {f : CloseFaults} {s s₁ : Sys} {e : Error}
    (h : unregisterErrorhandlers f s = .error e s₁) : s₁ = s := by
  simp only [unregisterErrorhandlers, bind_apply, get_apply] at h
  cases hw : s.self.noticeWaiters with
  | none => simp only [hw] at h; cases h
  | some w =>
    simp only [hw, bind_apply, get_apply] at h
    split_ifs at h
    · cases h; rfl
    · simp only [bind_apply, pure_apply, unregisterAll_apply _ _ w hw] at h
      cases h

theorem close_without_conn (name : ℕ → String) (f : CloseFaults) (s : Sys)
    (h : s.self.conn = none) : close name f s = .ok () s := by
  simp [close, h]

theorem close_returns (name : ℕ → String) (f : CloseFaults) (s s' : Sys) (pg : ℕ)
    (h : s.self.conn = some pg) (hr : close name f s = .ok () s') :
    s'.self.conn = none ∧ s'.self.receivers = [] ∧
      (∀ w, s.self.noticeWaiters = some w → (s'.hubs w).errorhandlers = []) ∧
      ∃ notices, s'.log = s.log ++ notices ++ [.finish pg] ∧ ∀ e ∈ notices, ∃ m, e = .notice m := by
  simp only [close, bind_apply, get_apply, h] at hr
  obtain ⟨_, s₁, h₁, hr⟩ := bind_eq_ok (tryCatch_eq_ok hr)
  obtain ⟨_, s₂, h₂, hr⟩ := bind_eq_ok hr
  obtain ⟨_, s₃, h₃, hr⟩ := bind_eq_ok hr
  obtain ⟨hs₁, -, hn₁⟩ := noticeOpenTransaction_ok h₁
  obtain ⟨-, hr₂, hw₂, -, hn₂⟩ := dropReceivers_ok h₂
  obtain ⟨hs₃, hl₃, hh₃⟩ := unregisterErrorhandlers_ok h₃
  simp only [bind_apply, emit_apply, update_apply] at hr
  cases hr
  obtain ⟨ns, hl, hn⟩ := hn₁.trans hn₂
  exact ⟨rfl, by rw [hs₃, hr₂], fun w hw => hh₃ w (by rw [hw₂, hs₁, hw]), ns, by simp [hl₃, hl], hn⟩

theorem close_throws (name : ℕ → String) (f : CloseFaults) (s s' : Sys) (e : Error)
    (hr : close name f s = .error e s') : s'.self.conn = none ∧ NoticesAfter s s' := by
  cases hc : s.self.conn with
  | none => simp [close_without_conn name f s hc] at hr
  | some pg =>
    simp only [close, bind_apply, get_apply, hc] at hr
    obtain ⟨e₀, s₀, hb, hh⟩ := tryCatch_eq_error hr
    simp only [bind_apply, update_apply, throw_apply] at hh
    cases hh
    refine ⟨rfl, ?_⟩
    rcases bind_eq_error hb with h₁ | ⟨_, s₁, h₁, hb⟩
    · rw [noticeOpenTransaction_error h₁]; exact .refl s
    rcases bind_eq_error hb with h₂ | ⟨_, s₂, h₂, hb⟩
    · exact absurd h₂ dropReceivers_ne_error
    rcases bind_eq_error hb with h₃ | ⟨_, s₃, -, hb⟩
    · rw [unregisterErrorhandlers_error h₃]
      exact (noticeOpenTransaction_ok h₁).2.2.trans (dropReceivers_ok h₂).2.2.2.2
    · simp at hb

theorem close_conn_null (name : ℕ → String) (f : CloseFaults) (s : Sys) :
    (final (close name f s)).self.conn = none := by
  cases hr : close name f s with
  | error e s' => exact (close_throws name f s s' e hr).1
  | ok u s' =>
    cases hc : s.self.conn with
    | none => rw [close_without_conn name f s hc] at hr; cases hr; exact hc
    | some pg => exact (close_returns name f s s' pg hc hr).1

/-- `close` is idempotent: after a first `close`, returned or thrown, any
further `close`, with any allocation failing or not, returns and changes
nothing, the log included. -/
theorem close_idempotent (name : ℕ → String) (f f' : CloseFaults) (s : Sys) :
    close name f' (final (close name f s)) = .ok () (final (close name f s)) :=
  close_without_conn name f' _ (close_conn_null name f s)

end Pqxx.Close
