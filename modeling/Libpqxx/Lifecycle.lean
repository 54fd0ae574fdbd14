import Libpqxx.Close
import Libpqxx.Ownership

/-! Connection objects and the `PGconn`s they hold, over construction
(blocking, non-blocking, from a raw `PGconn`), move construction, move
assignment, `close` and `connecting::produce`. What libpq and the allocator
answer during a construction is an input. A connection object is known by
its address; an address without a live object reads as the members' default
initialisers. `close` is the model of `Close`, run on the object's members. -/

set_option autoImplicit false

namespace Pqxx.Lifecycle

open Notice Close Ownership

inductive Status
  | ok
  | bad
  | other
  deriving DecidableEq, Repr

/-- What libpq and the allocator do during one construction or `produce`:
whether `PQconnectdb` or `PQconnectStart` returns a `PGconn`, whether
`make_shared<notice_waiters>` succeeds, `PQstatus`, `PQprotocolVersion`,
`PQserverVersion` and `PQerrorMessage`. -/
structure Transport where
  connects : Bool
  allocates : Bool
  status : Status
  protocolVersion : ℤ
  serverVersion : ℤ
  errorMessage : String

def blank : Conn := ⟨none, none, HandlerMap.empty, [], none, 0⟩

/-- Connection objects by address, the hubs, the context installed on each
`PGconn`'s notice processor, the `PGconn`s passed to `PQfinish` in order,
and the next fresh address, `PGconn` and hub. -/
structure World where
  objects : ℕ → Conn
  hubs : ℕ → Hub
  processor : ℕ → Option ℕ
  finished : List ℕ
  nextObject : ℕ
  nextConn : ℕ
  nextHub : ℕ

abbrev W := EStateM Error World

def obj (i : ℕ) : W Conn := return (← get).objects i

def modifyObj (i : ℕ) (f : Conn → Conn) : W Unit :=
  modify fun w => { w with objects := Function.update w.objects i (f (w.objects i)) }

def setConn (i : ℕ) (pg : Option ℕ) : W Unit := modifyObj i fun c => { c with conn := pg }

def pqFinish (pg : ℕ) : W Unit := modify fun w => { w with finished := w.finished ++ [pg] }

def newPGconn : W ℕ := modifyGet fun w => (w.nextConn, { w with nextConn := w.nextConn + 1 })

def takeFresh (i : ℕ) : W Unit := do setConn i (some (← newPGconn))

def connectdb (t : Transport) (i : ℕ) : W Unit :=
  if t.connects then takeFresh i else setConn i none

def finishConn (i : ℕ) : W Unit := do
  if let some pg := (← obj i).conn then pqFinish pg
  setConn i none

def exchangeConn (tgt src : ℕ) : W Unit := do
  let pg := (← obj src).conn
  setConn src none
  setConn tgt pg

def newHub : W ℕ := modifyGet fun w =>
  (w.nextHub, { w with nextHub := w.nextHub + 1, hubs := Function.update w.hubs w.nextHub ⟨[], none⟩ })

def setNoticeProcessor (pg : ℕ) (hub : Option ℕ) : W Unit :=
  modify fun w => { w with processor := Function.update w.processor pg hub }

def World.alloc (w : World) : World :=
  { w with objects := Function.update w.objects w.nextObject blank, nextObject := w.nextObject + 1 }

def World.destroy (w : World) (i : ℕ) : World :=
  { w with objects := Function.update w.objects i blank }

def construct (body : ℕ → W Unit) : W ℕ := do
  let i := (← get).nextObject
  modify World.alloc
  tryCatch (do body i; pure i) fun e => do
    modify (·.destroy i)
    throw e

theorem construct_apply (body : ℕ → W Unit) (w : World) :
    construct body w = match body w.nextObject w.alloc with
      | .ok _ w' => .ok w.nextObject w'
      | .error e w' => .error e (w'.destroy w.nextObject) := by
  simp only [construct, bind_apply, get_apply, modify_apply, tryCatch_apply]
  cases body w.nextObject w.alloc <;> rfl

def setUpNoticeHandlers (t : Transport) (i : ℕ) : W Unit := do
  if (← obj i).noticeWaiters.isNone then
    if !t.allocates then throw .badAlloc
    let hub ← newHub
    modifyObj i fun c => { c with noticeWaiters := some hub }
  let c ← obj i
  if let some pg := c.conn then setNoticeProcessor pg c.noticeWaiters

def setUpState (t : Transport) : W Unit := do
  if t.protocolVersion < 3 then
    if t.protocolVersion = 0 then throw (.brokenConnection "No connection.")
    else throw (.featureNotSupported
      "Unsupported frontend/backend protocol version; 3.0 is the minimum.")
  if t.serverVersion ≤ 90000 then
    throw (.featureNotSupported "Unsupported server version; 9.0 is the minimum.")

def completeInit (t : Transport) (i : ℕ) : W Unit := do
  if (← obj i).conn.isNone then throw .badAlloc
  tryCatch (do
      if t.status ≠ .ok then throw (.brokenConnection t.errorMessage)
      setUpState t)
    fun e => do
      finishConn i
      throw e

def init (t : Transport) (i : ℕ) : W Unit := do
  connectdb t i
  setUpNoticeHandlers t i
  completeInit t i

/-- Modelled from the spec: the blocking constructors (in `connection.hxx`,
absent here) call `init` on the new object. -/
def connectBlocking (t : Transport) : W ℕ := construct (init t)

def connectNonblocking (t : Transport) : W ℕ := construct fun i => do
  connectdb t i
  if (← obj i).conn.isNone then throw .badAlloc
  setUpNoticeHandlers t i
  if t.status = .bad then
    finishConn i
    throw (.brokenConnection t.errorMessage)

def adoptRaw (t : Transport) : W ℕ := construct fun i => do
  takeFresh i
  setUpNoticeHandlers t i

def checkGuests (transMsg receiversMsg : String) (i : ℕ) : W Unit := do
  let c ← obj i
  if c.trans.isSome then throw (.usageError transMsg)
  if !c.receivers.isEmpty then throw (.usageError receiversMsg)

theorem checkGuests_apply (a b : String) (i : ℕ) (w : World) :
    checkGuests a b i w =
      if (w.objects i).trans.isSome then .error (.usageError a) w
      else if (w.objects i).receivers ≠ [] then .error (.usageError b) w else .ok () w := by
  simp only [checkGuests, obj, bind_apply, get_apply, pure_apply]
  by_cases ht : (w.objects i).trans.isSome <;> by_cases hr : (w.objects i).receivers = [] <;> simp [ht, hr]

def checkMovable (i : ℕ) : W Unit :=
  checkGuests "Moving a connection with a transaction open."
    "Moving a connection with notification receivers registered." i

def checkOverwritable (i : ℕ) : W Unit :=
  checkGuests "Moving a connection onto one with a transaction open."
    "Moving a connection onto one with notification receivers registered." i

def moveMembers (src i : ℕ) : W Unit := do
  let r ← obj src
  modifyObj i fun c => { c with
    conn := r.conn, noticeWaiters := r.noticeWaiters
    notificationHandlers := r.notificationHandlers, uniqueId := r.uniqueId }
  modifyObj src fun c => { c with noticeWaiters := none, notificationHandlers := HandlerMap.empty }

def moveConstruct (src : ℕ) : W ℕ := construct fun i => do
  moveMembers src i
  checkMovable src
  setConn src none

def movingInTransaction : World where
  objects := Function.update (fun _ => blank) 0
    ⟨some 0, some 0, HandlerMap.empty.insertOrAssign "b" 1, [], some 1, 7⟩
  hubs := fun _ => ⟨[], none⟩
  processor := Function.update (fun _ => none) 0 (some 0)
  finished := []
  nextObject := 1
  nextConn := 1
  nextHub := 1

/-- Move-constructing from a connection with a transaction open throws, but
the source has already lost its hub and its handlers, while its `PGconn`'s
notice processor still points at the hub. -/
theorem move_construct_rejected_strips_source :
    moveConstruct 0 movingInTransaction =
        .error (.usageError "Moving a connection with a transaction open.")
          (final (moveConstruct 0 movingInTransaction)) ∧
      (final (moveConstruct 0 movingInTransaction)).objects 0 =
        { movingInTransaction.objects 0 with noticeWaiters := none, notificationHandlers := HandlerMap.empty } ∧
      (final (moveConstruct 0 movingInTransaction)).processor 0 = some 0 :=
  ⟨rfl, rfl, rfl⟩

def finishedBy : Effect → Option ℕ
  | .finish pg => some pg
  | _ => none

theorem finishedBy_notices {ns : List Effect} (h : ∀ x ∈ ns, ∃ m, x = .notice m) :
    ns.filterMap finishedBy = [] := by
  induction ns with
  | nil => rfl
  | cons x xs ih =>
    obtain ⟨m, rfl⟩ := h x (.head _)
    exact ih fun y hy => h y (.tail _ hy)

def closeObject (name : ℕ → String) (f : CloseFaults) (i : ℕ) : W Unit := fun w =>
  let r := close name f ⟨w.objects i, w.hubs, [], []⟩
  let w' := { w with
    objects := Function.update w.objects i (final r).self
    hubs := (final r).hubs
    finished := w.finished ++ (final r).log.filterMap finishedBy }
  match r with
  | .ok _ _ => .ok () w'
  | .error e _ => .error e w'

def moveAssign (name : ℕ → String) (f : CloseFaults) (tgt src : ℕ) : W Unit := do
  checkOverwritable tgt
  checkMovable src
  closeObject name f tgt
  exchangeConn tgt src
  let id := (← obj src).uniqueId
  modifyObj tgt fun c => { c with uniqueId := id }
  let hub := (← obj src).noticeWaiters
  modifyObj src fun c => { c with noticeWaiters := none }
  modifyObj tgt fun c => { c with noticeWaiters := hub }
  modifyObj tgt fun c => { c with notificationHandlers := HandlerMap.empty }
  let hs := (← obj src).notificationHandlers
  modifyObj src fun c => { c with notificationHandlers := HandlerMap.empty }
  modifyObj tgt fun c => { c with notificationHandlers := hs }

def produce (t : Transport) (done : Bool) (i : ℕ) : W ℕ := do
  if !done then throw (.usageError "Tried to produce a nonblocking connection before it was done.")
  completeInit t i
  moveConstruct i

inductive LifeOp
  | connect (t : Transport)
  | connectNonblocking (t : Transport)
  | adopt (t : Transport)
  | moveConstruct (src : ℕ)
  | moveAssign (name : ℕ → String) (f : CloseFaults) (tgt src : ℕ)
  | close (name : ℕ → String) (f : CloseFaults) (i : ℕ)
  | produce (t : Transport) (done : Bool) (i : ℕ)

def LifeOp.apply : LifeOp → World → World
  | .connect t, w => final (connectBlocking t w)
  | .connectNonblocking t, w => final (Lifecycle.connectNonblocking t w)
  | .adopt t, w => final (adoptRaw t w)
  | .moveConstruct src, w => final (Lifecycle.moveConstruct src w)
  | .moveAssign name f tgt src, w => final (Lifecycle.moveAssign name f tgt src w)
  | .close name f i, w => final (closeObject name f i w)
  | .produce t done i, w => final (Lifecycle.produce t done i w)

def runLife : List LifeOp → World → World
  | [], w => w
  | op :: ops, w => runLife ops (op.apply w)

def World.initial : World := ⟨fun _ => blank, fun _ => ⟨[], none⟩, fun _ => none, [], 0, 0, 0⟩

end Pqxx.Lifecycle
