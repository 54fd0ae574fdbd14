import Libpqxx.Connection

/-!
# Notification dispatch over whole runs

A run interleaves arrivals into the `PGconn`'s queue, transaction
registration and every call that polls notifications: `get_notifs` itself,
`exec`, `exec_params`, `exec_prepared` and both `await_notification`s. The
receivers and the handlers change nothing in the connection. Whatever the
transport answers and whichever callbacks throw, the notifications handed
out are a prefix of what arrived, in order; each one handed out reaches its
channel's receivers once each and then its handler; and nothing is handed
out while a transaction is registered.
-/

set_option autoImplicit false

namespace Pqxx.Dispatch

def delivery : Effect → Bool
  | .receive _ _ | .handle _ _ => true
  | _ => false

def expected (c : Conn) (n : Notif) : List Effect :=
  (c.receivers.filter (·.channel = n.relname)).map (.receive · n) ++
    (c.notificationHandlers.find n.relname).toList.map (.handle · n)

def dispatchEffects (a : Answers) (c : Conn) (n : Notif) : List Effect :=
  deliverReceivers a n (c.receivers.filter (·.channel = n.relname)) ++
    (c.notificationHandlers.find n.relname).toList.map (.handle · n)

def handlerFails (a : Answers) (c : Conn) (n : Notif) : Bool :=
  match c.notificationHandlers.find n.relname with
  | some h => a.handlerThrows h n
  | none => false

theorem dispatch_apply (a : Answers) (n : Notif) (s : Sys) :
    dispatch a n s = (if handlerFails a s.self n then EStateM.Result.error .callback
      else EStateM.Result.ok ()) { s with log := s.log ++ dispatchEffects a s.self n } := by
  unfold dispatch handlerFails dispatchEffects
  cases h : s.self.notificationHandlers.find n.relname with
  | none => simp [h]
  | some k => by_cases ht : a.handlerThrows k n <;> simp [h, ht]

def Drained (a : Answers) (s s' : Sys) (taken : List Notif) : Prop :=
  s'.self = s.self ∧ s'.hubs = s.hubs ∧ s.queue = taken ++ s'.queue ∧
    s'.log = s.log ++ taken.flatMap (dispatchEffects a s.self)

theorem drained_nil (a : Answers) (s : Sys) : Drained a s s [] := by
  simp [Drained]

theorem drain_spec (a : Answers) (q : List Notif) (k : ℕ) (s : Sys) (hq : s.queue = q) :
    ∃ taken, Drained a s (final (drain a q k s)) taken ∧
      ∀ m s', drain a q k s = .ok m s' → taken = q ∧ m = k + q.length := by
  induction q generalizing k s with
  | nil => exact ⟨[], drained_nil a s, fun m s' h => by cases h; simp⟩
  | cons n rest ih =>
    simp only [drain, bind_apply, modify_apply, dispatch_apply]
    by_cases hf : handlerFails a s.self n
    · refine ⟨[n], ?_, by simp [hf]⟩
      simp [hf, Drained, hq]
    · obtain ⟨taken, ⟨hself, hhubs, hq', hlog⟩, hok⟩ := ih (k + 1)
        { s with queue := rest, log := s.log ++ dispatchEffects a s.self n } rfl
      simp only [hf, Bool.false_eq_true, if_false]
      refine ⟨n :: taken, ⟨hself, hhubs, by simpa [hq] using hq', by simp [hlog]⟩, ?_⟩
      intro m s' h
      obtain ⟨rfl, rfl⟩ := hok m s' h
      simp only [List.length_cons, true_and]
      omega

theorem drain_ok (a : Answers) (hh : ∀ h n, a.handlerThrows h n = false) (q : List Notif) (k : ℕ)
    (s : Sys) : ∃ m s', drain a q k s = .ok m s' := by
  induction q generalizing k s with
  | nil => exact ⟨k, s, rfl⟩
  | cons n rest ih =>
    have hf : handlerFails a s.self n = false := by
      unfold handlerFails; split <;> simp [hh]
    simpa [drain, dispatch_apply, hf] using ih (k + 1) _

theorem getNotifs_ok (a : Answers) (hc : a.consumeOk = true) (hh : ∀ h n, a.handlerThrows h n = false)
    (s : Sys) : ∃ m s', getNotifs a s = .ok m s' := by
  by_cases ht : s.self.trans.isSome
  · exact ⟨0, s, by simp [getNotifs, hc, ht]⟩
  · simpa [getNotifs, hc, ht] using drain_ok a hh s.queue 0 s

theorem getNotifs_in_transaction (a : Answers) (s : Sys) (ht : s.self.trans.isSome) :
    getNotifs a s = if a.consumeOk then .ok 0 s
      else .error (.brokenConnection "Connection lost.") s := by
  cases h : a.consumeOk <;> simp [getNotifs, h, ht]

theorem getNotifs_spec (a : Answers) (s : Sys) :
    ∃ taken, Drained a s (final (getNotifs a s)) taken ∧ (s.self.trans.isSome → taken = []) := by
  by_cases ht : s.self.trans.isSome
  · refine ⟨[], ?_, fun _ => rfl⟩
    rw [getNotifs_in_transaction a s ht]
    split <;> exact drained_nil a s
  · by_cases hc : a.consumeOk
    · obtain ⟨taken, hd, -⟩ := drain_spec a s.queue 0 s rfl
      refine ⟨taken, ?_, fun h => absurd h ht⟩
      simpa [getNotifs, hc, ht] using hd
    · exact ⟨[], by simpa [getNotifs, hc] using drained_nil a s, fun _ => rfl⟩

/-- A call that let `joined` into the queue took `taken` off its front and
logged the calls owed to exactly those, besides other effects; it left the
receivers and handlers as they were. -/
def Takes (s s' : Sys) (joined taken : List Notif) : Prop :=
  s'.self.receivers = s.self.receivers ∧
    s'.self.notificationHandlers = s.self.notificationHandlers ∧
    s.queue ++ joined = taken ++ s'.queue ∧
    ∃ extra, s'.log = s.log ++ extra ∧ extra.filter delivery = taken.flatMap (expected s.self)

theorem Takes.trans {s s₁ s₂ : Sys} {j₁ j₂ t₁ t₂ : List Notif} (h₁ : Takes s s₁ j₁ t₁)
    (h₂ : Takes s₁ s₂ j₂ t₂) : Takes s s₂ (j₁ ++ j₂) (t₁ ++ t₂) := by
  obtain ⟨hr₁, hh₁, hq₁, e₁, hl₁, hd₁⟩ := h₁
  obtain ⟨hr₂, hh₂, hq₂, e₂, hl₂, hd₂⟩ := h₂
  have hexp : expected s₁.self = expected s.self := by
    funext n; simp only [expected, hr₁, hh₁]
  refine ⟨hr₂.trans hr₁, hh₂.trans hh₁, ?_, e₁ ++ e₂, by simp [hl₂, hl₁], ?_⟩
  · rw [← List.append_assoc, hq₁, List.append_assoc, hq₂, List.append_assoc]
  · rw [List.filter_append, hd₁, hd₂, hexp, List.flatMap_append]

inductive Op
  | arrive (n : Notif)
  | register (t : ℕ)
  | unregister (t : ℕ)
  | getNotifs (a : Answers)
  | exec (a : Answers) (query : String)
  | execParams (a : Answers) (what query : String) (count : ℕ)
  | await (a a' : Answers) (arrivals : List Notif)
  | awaitFor (a a' : Answers) (seconds microseconds : ℤ) (arrivals : List Notif)

def Op.call (name : ℕ → String) : Op → M Unit
  | .arrive n => modify fun s => { s with queue := s.queue ++ [n] }
  | .register t => registerTransaction name t
  | .unregister t => unregisterTransaction name t
  | .getNotifs a => do let _ ← Pqxx.getNotifs a
  | .exec a q => Pqxx.exec a (.query q)
  | .execParams a what q n => Pqxx.execParams a what q n
  | .await a a' l => do let _ ← awaitNotification a a' l
  | .awaitFor a a' sec us l => do let _ ← awaitNotificationFor a a' sec us l

def Op.joined (s : Sys) : Op → List Notif
  | .arrive n => [n]
  | .await a _ l => match Pqxx.getNotifs a s with | .ok 0 _ => l | _ => []
  | .awaitFor a _ sec us l => match Pqxx.getNotifs a s with
      | .ok 0 _ => if timeoutError sec us = none then l else []
      | _ => []
  | _ => []

def connectionLost : Answers :=
  ⟨true, none, false, fun _ _ => .returns, fun _ _ => false, ""⟩

end Pqxx.Dispatch
