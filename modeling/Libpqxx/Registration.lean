import Libpqxx.Connection

/-! Runs of `register_transaction` and `unregister_transaction` through the
`connection_transaction` gate. Each call is recorded with whether it returned
normally; which transactions are active is then read off that history and
compared with `m_trans`. `unregister_transaction` clears the slot whatever
its check says, so an unregistration by any transaction ends the active one. -/

set_option autoImplicit false

namespace Pqxx.Registration

inductive RegOp
  | register (t : ℕ)
  | unregister (t : ℕ)
  deriving DecidableEq, Repr

def RegOp.call (name : ℕ → String) : RegOp → M Unit
  | .register t => registerTransaction name t
  | .unregister t => unregisterTransaction name t

structure Event where
  op : RegOp
  returned : Bool
  deriving DecidableEq, Repr

def returned {α : Type} : EStateM.Result Error Sys α → Bool
  | .ok _ _ => true
  | .error _ _ => false

def runReg (name : ℕ → String) : List RegOp → Sys → List Event × Sys
  | [], s => ([], s)
  | op :: ops, s =>
    let r := runReg name ops (final (op.call name s))
    (⟨op, returned (op.call name s)⟩ :: r.1, r.2)

def ownStep (t : ℕ) (b : Bool) (e : Event) : Bool :=
  match e.op with
  | .register u => if u = t then e.returned else b
  | .unregister u => if u = t then false else b

/-- The same, except that every unregistration ends it. -/
def slotStep (t : ℕ) (b : Bool) (e : Event) : Bool :=
  match e.op with
  | .register u => if u = t then e.returned else b
  | .unregister _ => false

def activeBy (step : ℕ → Bool → Event → Bool) (s : Sys) (evs : List Event) (t : ℕ) : Bool :=
  evs.foldl (step t) (s.self.trans = some t)

section Calls

variable (name : ℕ → String) (s : Sys)

theorem registerTransaction_cases (t : ℕ) :
    (s.self.trans = none ∨ s.self.trans = some t) ∧
        registerTransaction name t s = .ok () { s with self := { s.self with trans := some t } } ∨
      (s.self.trans ≠ none ∧ s.self.trans ≠ some t) ∧ ∃ e, registerTransaction name t s = .error e s := by
  simp only [registerTransaction, bind_apply, get_apply, checkUniqueRegister]
  rcases h : s.self.trans with _ | g
  · simp [h]
  · by_cases hg : t = g
    · subst hg; simp [h]
    · simp [h, hg, Ne.symm hg]

theorem unregisterTransaction_apply (t : ℕ) :
    unregisterTransaction name t s =
      match checkUniqueUnregister s.self.trans "transaction" (getName name s.self.trans) (some t)
          "transaction" (name t) with
      | .error e => .ok () { s with
          self := { s.self with trans := none }, log := s.log ++ [.notice e.what] }
      | .ok () => .ok () { s with self := { s.self with trans := none } } := by
  simp only [unregisterTransaction, bind_apply, get_apply]
  cases checkUniqueUnregister s.self.trans "transaction" (getName name s.self.trans) (some t)
    "transaction" (name t) <;> rfl

theorem unregisterTransaction_final_trans (t : ℕ) :
    (final (unregisterTransaction name t s)).self.trans = none ∧
      returned (unregisterTransaction name t s) = true := by
  rw [unregisterTransaction_apply]
  split <;> exact ⟨rfl, rfl⟩

theorem slotStep_call (op : RegOp) (t : ℕ) :
    slotStep t (s.self.trans = some t) ⟨op, returned (op.call name s)⟩ =
      decide ((final (op.call name s)).self.trans = some t) := by
  cases op with
  | register u =>
    rcases registerTransaction_cases name s u with ⟨hfree, hok⟩ | ⟨hbusy, e, herr⟩
    · by_cases hu : u = t
      · subst hu; simp [slotStep, RegOp.call, hok, returned]
      · have : s.self.trans ≠ some t := by rcases hfree with h | h <;> simp [h, hu]
        simp [slotStep, RegOp.call, hok, returned, hu, this]
    · by_cases hu : u = t
      · subst hu; simp [slotStep, RegOp.call, herr, returned, hbusy.2]
      · simp [slotStep, RegOp.call, herr, returned, hu]
  | unregister u =>
    obtain ⟨hslot, hret⟩ := unregisterTransaction_final_trans name s u
    simp [slotStep, RegOp.call, hslot, hret]

end Calls

theorem activeBy_slotStep_runReg (name : ℕ → String) (ops : List RegOp) (s : Sys) (t : ℕ) :
    activeBy slotStep s (runReg name ops s).1 t = decide ((runReg name ops s).2.self.trans = some t) := by
  induction ops generalizing s with
  | nil => rfl
  | cons op ops ih =>
    simp only [activeBy, runReg, List.foldl_cons, slotStep_call]
    exact ih _

/-- For any run of registrations and unregistrations from any state, where
every unregistration ends the active transaction: the active transactions
are exactly the one in `m_trans`, so there is at most one; and
`unregister_transaction(u)` by a `u` not in the slot issues the check's
message as a notice and clears the slot. -/
theorem registration_slot_tracks_history (name : ℕ → String) :
    (∀ (ops : List RegOp) (s : Sys) (t : ℕ),
      activeBy slotStep s (runReg name ops s).1 t = true ↔ (runReg name ops s).2.self.trans = some t) ∧
    (∀ (ops : List RegOp) (s : Sys) (t u : ℕ), activeBy slotStep s (runReg name ops s).1 t = true →
      activeBy slotStep s (runReg name ops s).1 u = true → t = u) ∧
    (∀ (s : Sys) (u : ℕ), s.self.trans ≠ some u →
      ∃ e, checkUniqueUnregister s.self.trans "transaction" (getName name s.self.trans) (some u)
          "transaction" (name u) = .error e ∧
        unregisterTransaction name u s =
          .ok () { s with self := { s.self with trans := none }, log := s.log ++ [.notice e.what] }) := by
  have hrun := activeBy_slotStep_runReg name
  refine ⟨fun ops s t => by simp [hrun], fun ops s t u ht hu => ?_, fun s u hu => ?_⟩
  · simp only [hrun, decide_eq_true_eq] at ht hu
    exact Option.some_injective _ (ht.symm.trans hu)
  · rw [unregisterTransaction_apply]
    simp only [checkUniqueUnregister, if_neg (Ne.symm hu)]
    exact ⟨_, rfl, rfl⟩

def idle : Sys :=
  ⟨⟨some 0, some 0, HandlerMap.empty, [], none, 0⟩, fun _ => ⟨[], none⟩, [], []⟩

/-- Transaction 1 registers and transaction 2 unregisters: 1 has not
unregistered, yet the slot is empty. -/
theorem foreign_unregister_clears_slot :
    activeBy ownStep idle (runReg (fun _ => "") [.register 1, .unregister 2] idle).1 1 = true ∧
      (runReg (fun _ => "") [.register 1, .unregister 2] idle).2.self.trans = none := by
  decide

def holdingOne : Sys :=
  ⟨⟨some 0, some 0, HandlerMap.empty, [], some 1, 0⟩, fun _ => ⟨[], none⟩, [], []⟩

theorem registration_slot_after_foreign_unregister :
    (activeBy slotStep idle (runReg (fun _ => "") [.register 1, .unregister 2, .register 3] idle).1 3 = true ↔
        (runReg (fun _ => "") [.register 1, .unregister 2, .register 3] idle).2.self.trans = some 3) ∧
      (activeBy slotStep idle (runReg (fun _ => "") [.register 1, .unregister 2, .register 3] idle).1 3 = true ∧
        (3 : ℕ) = 3) ∧
      (holdingOne.self.trans ≠ some 2 ∧
        ∃ e, checkUniqueUnregister holdingOne.self.trans "transaction" (getName (fun _ => "") holdingOne.self.trans)
            (some 2) "transaction" "" = .error e ∧
          unregisterTransaction (fun _ => "") 2 holdingOne = .ok ()
            { holdingOne with self := { holdingOne.self with trans := none }, log := holdingOne.log ++ [.notice e.what] }) :=
  have h := registration_slot_tracks_history (fun _ => "")
  have hrun : activeBy slotStep idle (runReg (fun _ => "") [.register 1, .unregister 2, .register 3] idle).1 3 =
      true := by decide
  ⟨h.1 _ _ _, ⟨hrun, h.2.1 _ _ 3 3 hrun hrun⟩, by decide, h.2.2 _ _ (by decide)⟩

end Pqxx.Registration
