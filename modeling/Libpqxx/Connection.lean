import Libpqxx.HandlerMap
import Libpqxx.Notice
import Libpqxx.CheckCast

/-!
# The connection object and its notification machinery

The members of a `pqxx::connection` that the modelled calls read, with the
state outside the object that those calls change: the hub store and the
queue of notifications libpq has received on the `PGconn`. A call is an
`EStateM` action, so a C++ exception keeps the changes made before it. Side
effects go to a log in call order. The transport's replies and what the
callbacks do are inputs of each call.
-/

set_option autoImplicit false

namespace Pqxx

open Notice CheckCast

inductive Error
  | usageError (what : String)
  | brokenConnection (what : String)
  | failure (what : String)
  | argumentError (what : String)
  | featureNotSupported (what : String)
  | rangeError (what : String)
  | conversionError (what : String)
  | internalError (what : String)
  | badAlloc
  | callback
  deriving DecidableEq, Repr

def Error.what : Error → String
  | .usageError w | .brokenConnection w | .failure w | .argumentError w
  | .featureNotSupported w | .rangeError w | .conversionError w | .internalError w => w
  | .badAlloc => "std::bad_alloc"
  | .callback => ""

structure Notif where
  relname : String
  extra : String
  bePid : ℤ
  deriving DecidableEq, Repr

structure Receiver where
  id : ℕ
  channel : String
  deriving DecidableEq, Repr

inductive Command
  | listen (channel : String)
  | unlisten (channel : String)
  | query (text : String)
  deriving DecidableEq, Repr

inductive Effect
  | exec (cmd : Command)
  | notice (msg : String)
  | finish (pg : ℕ)
  | receive (r : Receiver) (n : Notif)
  | handle (h : ℕ) (n : Notif)
  deriving DecidableEq, Repr

structure Conn where
  conn : Option ℕ
  noticeWaiters : Option ℕ
  notificationHandlers : HandlerMap
  receivers : List Receiver
  trans : Option ℕ
  uniqueId : ℕ

/-- A connection, the hubs, the `PGconn`'s notification queue and the log. -/
structure Sys where
  self : Conn
  hubs : ℕ → Hub
  queue : List Notif
  log : List Effect

abbrev M := EStateM Error Sys

def emit (e : Effect) : M Unit := modify fun s => { s with log := s.log ++ [e] }

def update (f : Conn → Conn) : M Unit := modify fun s => { s with self := f s.self }

inductive Reaction
  | returns
  | throws (what : String)
  | throwsOom
  | throwsOther
  deriving DecidableEq, Repr

def Reaction.notice (channel : String) : Reaction → Option String
  | .returns => none
  | .throws what => some s!"Exception in notification receiver '{channel}': {what}\n"
  | .throwsOom => some "Exception in notification receiver, and also ran out of memory\n"
  | .throwsOther => some "Exception in notification receiver (compounded by other error)\n"

/-- The transport's replies and the callbacks' behaviour during one call:
whether `PQescapeIdentifier` succeeds, what `make_result` throws for the
command's result (if anything), whether `PQconsumeInput` succeeds, how each
receiver call ends, whether each handler call throws, and the text of
`PQerrorMessage`. -/
structure Answers where
  quoteOk : Bool
  execError : Option Error
  consumeOk : Bool
  reaction : Receiver → Notif → Reaction
  handlerThrows : ℕ → Notif → Bool
  errMsg : String

section Apply

variable {σ α β : Type}

@[simp] theorem bind_apply (x : EStateM Error σ α) (f : α → EStateM Error σ β) (s : σ) :
    (x >>= f) s = match x s with
      | .ok a s' => f a s'
      | .error e s' => .error e s' := by
  show EStateM.bind x f s = _
  unfold EStateM.bind
  cases x s <;> rfl

@[simp] theorem map_apply (f : α → β) (x : EStateM Error σ α) (s : σ) :
    (f <$> x) s = match x s with
      | .ok a s' => .ok (f a) s'
      | .error e s' => .error e s' := by
  show EStateM.map f x s = _
  unfold EStateM.map
  cases x s <;> rfl

@[simp] theorem pure_apply (a : α) (s : σ) : (pure a : EStateM Error σ α) s = .ok a s := rfl

@[simp] theorem get_apply (s : σ) : (get : EStateM Error σ σ) s = .ok s s := rfl

@[simp] theorem throw_apply (e : Error) (s : σ) : (throw e : EStateM Error σ α) s = .error e s := rfl

@[simp] theorem modify_apply (f : σ → σ) (s : σ) : (modify f : EStateM Error σ Unit) s = .ok () (f s) :=
  rfl

@[simp] theorem modifyGet_apply (f : σ → α × σ) (s : σ) :
    (modifyGet f : EStateM Error σ α) s = .ok (f s).1 (f s).2 := rfl

@[simp] theorem tryCatch_apply (x : EStateM Error σ α) (h : Error → EStateM Error σ α) (s : σ) :
    tryCatch x h s = match x s with
      | .ok a s' => .ok a s'
      | .error e s' => h e s' := by
  show EStateM.tryCatch x h s = _
  simp only [EStateM.tryCatch]
  cases x s <;> rfl

@[simp] theorem emit_apply (e : Effect) (s : Sys) :
    emit e s = .ok () { s with log := s.log ++ [e] } := rfl

@[simp] theorem update_apply (f : Conn → Conn) (s : Sys) :
    update f s = .ok () { s with self := f s.self } := rfl

theorem bind_eq_ok {x : EStateM Error σ α} {f : α → EStateM Error σ β} {s s' : σ} {b : β}
    (h : (x >>= f) s = .ok b s') :
    ∃ a s₁, x s = .ok a s₁ ∧ f a s₁ = .ok b s' := by
  rw [bind_apply] at h
  cases hx : x s with
  | ok a s₁ => exact ⟨a, s₁, rfl, by rwa [hx] at h⟩
  | error e s₁ => rw [hx] at h; cases h

theorem bind_eq_error {x : EStateM Error σ α} {f : α → EStateM Error σ β} {s s' : σ} {e : Error}
    (h : (x >>= f) s = .error e s') :
    x s = .error e s' ∨ ∃ a s₁, x s = .ok a s₁ ∧ f a s₁ = .error e s' := by
  rw [bind_apply] at h
  cases hx : x s with
  | ok a s₁ => exact .inr ⟨a, s₁, rfl, by rwa [hx] at h⟩
  | error e₁ s₁ => rw [hx] at h; cases h; exact .inl rfl

theorem tryCatch_eq_error {x : EStateM Error σ α} {h : Error → EStateM Error σ α} {s s' : σ} {e : Error}
    (hr : tryCatch x h s = .error e s') : ∃ e₀ s₀, x s = .error e₀ s₀ ∧ h e₀ s₀ = .error e s' := by
  rw [tryCatch_apply] at hr
  cases hx : x s with
  | ok a s₁ => rw [hx] at hr; cases hr
  | error e₁ s₁ => rw [hx] at hr; exact ⟨e₁, s₁, rfl, hr⟩

theorem tryCatch_eq_ok {x : EStateM Error σ α} {g : EStateM Error σ Unit} {s s' : σ} {a : α}
    (h : tryCatch x (fun e => g >>= fun _ => throw e) s = .ok a s') : x s = .ok a s' := by
  rw [tryCatch_apply] at h
  cases hx : x s with
  | ok b s₁ => rwa [hx] at h
  | error e s₁ =>
    simp only [hx, bind_apply] at h
    cases hg : g s₁ <;> simp [hg] at h

end Apply

def final {σ α : Type} : EStateM.Result Error σ α → σ
  | .ok _ s => s
  | .error _ s => s

@[simp] theorem final_ok {σ α : Type} (a : α) (s : σ) : final (.ok a s : EStateM.Result Error σ α) = s :=
  rfl

@[simp] theorem final_error {σ α : Type} (e : Error) (s : σ) :
    final (.error e s : EStateM.Result Error σ α) = s := rfl

/-- Modelled from the spec: `describe_object` (its body is in `util.cxx`,
absent here) names an object by kind and optional name. -/
def describeObject (className name : String) : String :=
  if name.isEmpty then className else s!"{className} '{name}'"

/-- Modelled from the spec: `check_unique_register` (in `util.cxx`, absent
here). Registering while a different non-null guest is present fails with a
usage error describing both guests; anything else is accepted. -/
def checkUniqueRegister (oldGuest : Option ℕ) (oldClass oldName : String)
    (newGuest : Option ℕ) (newClass newName : String) : Except Error Unit :=
  match oldGuest with
  | some g => if newGuest = some g then .ok () else
      .error (.usageError s!"Started new {describeObject newClass newName} while {describeObject oldClass oldName} was still active.")
  | none => .ok ()

/-- Modelled from the spec: `check_unique_unregister` (in `util.cxx`, absent
here). Unregistering fails unless the guest is exactly the one registered. -/
def checkUniqueUnregister (oldGuest : Option ℕ) (oldClass oldName : String)
    (newGuest : Option ℕ) (newClass newName : String) : Except Error Unit :=
  if newGuest = oldGuest then .ok () else
    .error (.usageError s!"Closed {describeObject newClass newName}; expected to close {describeObject oldClass oldName}.")

def getName (name : ℕ → String) : Option ℕ → String
  | none => ""
  | some t => name t

def registerTransaction (name : ℕ → String) (t : ℕ) : M Unit := do
  let c := (← get).self
  match checkUniqueRegister c.trans "transaction" (getName name c.trans) (some t) "transaction"
      (name t) with
  | .error e => throw e
  | .ok () => update fun c => { c with trans := some t }

def unregisterTransaction (name : ℕ → String) (t : ℕ) : M Unit := do
  let c := (← get).self
  match checkUniqueUnregister c.trans "transaction" (getName name c.trans) (some t) "transaction"
      (name t) with
  | .error e => emit (.notice e.what)
  | .ok () => pure ()
  update fun c => { c with trans := none }

def deliverReceivers (a : Answers) (n : Notif) : List Receiver → List Effect
  | [] => []
  | r :: rs => .receive r n :: ((a.reaction r n).notice r.channel).toList.map .notice ++
      deliverReceivers a n rs

def dispatch (a : Answers) (n : Notif) : M Unit := do
  let c := (← get).self
  modify fun s => { s with log := s.log ++ deliverReceivers a n (c.receivers.filter (·.channel = n.relname)) }
  match c.notificationHandlers.find n.relname with
  | some h => do
    emit (.handle h n)
    if a.handlerThrows h n then throw .callback
  | none => pure ()

def drain (a : Answers) : List Notif → ℕ → M ℕ
  | [], k => pure k
  | n :: rest, k => do
    modify fun s => { s with queue := rest }
    dispatch a n
    drain a rest (k + 1)

def getNotifs (a : Answers) : M ℕ := do
  if !a.consumeOk then throw (.brokenConnection "Connection lost.")
  let s ← get
  if s.self.trans.isSome then return 0
  drain a s.queue 0

def quoteName (a : Answers) : M Unit :=
  if a.quoteOk then pure () else throw (.failure a.errMsg)

def execCommand (a : Answers) (cmd : Command) : M Unit := do
  emit (.exec cmd)
  if let some e := a.execError then throw e

def exec (a : Answers) (cmd : Command) : M Unit := do
  execCommand a cmd
  let _ ← getNotifs a

def execParams (a : Answers) (what text : String) (count : ℕ) : M Unit := do
  if let .error w := checkCast int ⟨64, false⟩ count what then throw (.rangeError w)
  exec a (.query text)

/-- `await_notification()`: poll; if nothing came, wait and poll again.
What arrives during the wait is an input, as are both polls' answers. -/
def awaitNotification (a a' : Answers) (arrivals : List Notif) : M ℕ := do
  let n ← getNotifs a
  if n = 0 then
    modify fun s => { s with queue := s.queue ++ arrivals }
    getNotifs a'
  else pure n

def timeoutError (seconds microseconds : ℤ) : Option Error :=
  match checkCast unsigned ⟨64, true⟩ seconds "Seconds out of range.",
      checkCast unsigned ⟨64, true⟩ microseconds "Microseconds out of range." with
  | .error w, _ => some (.rangeError w)
  | _, .error w => some (.rangeError w)
  | _, _ => none

def awaitNotificationFor (a a' : Answers) (seconds microseconds : ℤ) (arrivals : List Notif) :
    M ℕ := do
  let n ← getNotifs a
  if n = 0 then
    if let some e := timeoutError seconds microseconds then throw e
    modify fun s => { s with queue := s.queue ++ arrivals }
    getNotifs a'
  else pure n

end Pqxx
