import Mathlib.Data.String.Basic

/-!
# Notice delivery

A connection's `notice_waiters` hub holds the legacy errorhandlers, in
registration order, and the notice handler. The connection, the notice
processor installed on its `PGconn` and every result it produced all reach
the same hub, which outlives the connection. A notice is offered to the
errorhandlers newest first until one returns false; the notice handler is
then called whatever they returned. What each errorhandler returns is an
input, as is which route a notice takes.
-/

set_option autoImplicit false

namespace Pqxx.Notice

structure Hub where
  errorhandlers : List ℕ
  noticeHandler : Option ℕ
  deriving DecidableEq, Repr

inductive Call
  | errorhandler (h : ℕ) (msg : String)
  | noticeHandler (f : ℕ) (msg : String)
  deriving DecidableEq, Repr

def Hub.register (w : Hub) (h : ℕ) : Hub :=
  { w with errorhandlers := w.errorhandlers ++ [h] }

def Hub.unregister (w : Hub) (h : ℕ) : Hub :=
  { w with errorhandlers := w.errorhandlers.filter (· ≠ h) }

def offer (ret : ℕ → String → Bool) (msg : String) : List ℕ → List Call
  | [] => []
  | h :: hs => .errorhandler h msg :: if ret h msg then offer ret msg hs else []

def processNoticeRaw (ret : ℕ → String → Bool) (waiters : Option Hub) (msg : String) :
    List Call :=
  match waiters with
  | none => []
  | some w => if msg.isEmpty then [] else
      offer ret msg w.errorhandlers.reverse ++ (w.noticeHandler.map (.noticeHandler · msg)).toList

inductive Route
  | connection (noticeWaiters : Option ℕ)
  | processor (context : Option ℕ)
  | result (noticeWaiters : Option ℕ)
  deriving DecidableEq, Repr

def Route.hub : Route → Option ℕ
  | .connection w => w
  | .processor w => w
  | .result w => w

def deliver (ret : ℕ → String → Bool) (hubs : ℕ → Hub) (r : Route) (msg : String) :
    List Call :=
  match r with
  | .connection w => if msg.isEmpty then [] else processNoticeRaw ret (w.map hubs) msg
  | .processor w => processNoticeRaw ret (w.map hubs) msg
  | .result w => processNoticeRaw ret (w.map hubs) msg

theorem deliver_eq (ret : ℕ → String → Bool) (hubs : ℕ → Hub) (r : Route) (msg : String) :
    deliver ret hubs r msg = processNoticeRaw ret (r.hub.map hubs) msg := by
  cases r with
  | connection w => cases w <;> by_cases h : msg.isEmpty <;> simp [deliver, processNoticeRaw, Route.hub, h]
  | processor w => rfl
  | result w => rfl

theorem offer_spec (ret : ℕ → String → Bool) (msg : String) (hs : List ℕ) :
    ∃ pre post, hs = pre ++ post ∧ offer ret msg hs.reverse = post.reverse.map (.errorhandler · msg) ∧
      (∀ h ∈ post.drop 1, ret h msg = true) ∧
      (pre = [] ∨ ∃ h ∈ post.head?, ret h msg = false) := by
  induction hs using List.reverseRecOn with
  | nil => exact ⟨[], [], by simp [offer]⟩
  | append_singleton hs h ih =>
    by_cases hr : ret h msg
    · obtain ⟨pre, post, rfl, hcalls, hmid, hfirst⟩ := ih
      refine ⟨pre, post ++ [h], by simp, ?_, ?_, ?_⟩
      · rw [List.reverse_append, List.reverse_singleton, List.singleton_append, offer,
          if_pos hr, hcalls, List.reverse_append]
        rfl
      · intro x hx
        cases post with
        | nil => simp at hx
        | cons p ps =>
          simp only [List.cons_append, List.drop_one, List.tail_cons, List.mem_append,
            List.mem_singleton] at hx
          rcases hx with hx | rfl
          · exact hmid x (by simpa using hx)
          · exact hr
      · rcases hfirst with rfl | ⟨x, hx, hf⟩
        · exact .inl rfl
        · cases post with
          | nil => simp at hx
          | cons p ps => exact .inr ⟨x, by simpa using hx, hf⟩
    · exact ⟨hs, [h], by simp, by simp [offer, hr], by simp, .inr ⟨h, by simp, by simpa using hr⟩⟩

/-- By every route that reaches a hub, even after its connection is gone,
an empty notice calls nothing, and any other calls the errorhandlers newest
first down to the first that returns false, each once, then the notice
handler once if one is installed, whatever the errorhandlers returned. -/
theorem notice_delivery_order (ret : ℕ → String → Bool) (hubs : ℕ → Hub) (r : Route) (i : ℕ)
    (hi : r.hub = some i) :
    deliver ret hubs r "" = [] ∧
    ∀ msg, msg ≠ "" → ∃ pre post, (hubs i).errorhandlers = pre ++ post ∧
      deliver ret hubs r msg = post.reverse.map (.errorhandler · msg) ++
        ((hubs i).noticeHandler.map (.noticeHandler · msg)).toList ∧
      (∀ h ∈ post.drop 1, ret h msg = true) ∧ (pre = [] ∨ ∃ h ∈ post.head?, ret h msg = false) := by
  refine ⟨by simp [deliver_eq, hi, processNoticeRaw, String.isEmpty_iff], fun msg hm => ?_⟩
  obtain ⟨pre, post, hs, hcalls, hmid, hfirst⟩ := offer_spec ret msg (hubs i).errorhandlers
  have he : msg.isEmpty = false := Bool.eq_false_iff.2 fun h => hm ((String.isEmpty_iff msg).1 h)
  exact ⟨pre, post, hs, by simp [deliver_eq, hi, processNoticeRaw, he, hcalls], hmid, hfirst⟩

theorem notice_delivery_order_connection :
    (Route.connection (some 0)).hub = some 0 ∧
      deliver (fun h _ => h != 2) (fun _ => ⟨[1, 2, 3], some 7⟩) (.connection (some 0)) "" = [] ∧
      ("m" ≠ "" ∧ ∃ pre post, [1, 2, 3] = pre ++ post ∧
        deliver (fun h _ => h != 2) (fun _ => ⟨[1, 2, 3], some 7⟩) (.connection (some 0)) "m" =
          post.reverse.map (.errorhandler · "m") ++ [.noticeHandler 7 "m"] ∧
        (∀ h ∈ post.drop 1, (h != 2) = true) ∧ (pre = [] ∨ ∃ h ∈ post.head?, (h != 2) = false)) ∧
      deliver (fun h _ => h != 2) (fun _ => ⟨[1, 2, 3], some 7⟩) (.connection (some 0)) "m" =
        [.errorhandler 3 "m", .errorhandler 2 "m", .noticeHandler 7 "m"] :=
  have h := notice_delivery_order (fun h _ => h != 2) (fun _ => ⟨[1, 2, 3], some 7⟩) (.connection (some 0)) 0 rfl
  ⟨rfl, h.1, ⟨by decide, h.2 "m" (by decide)⟩, by decide⟩

/-- An errorhandler that returns false does not keep the notice from the
notice handler. -/
theorem notice_handler_after_stop :
    deliver (fun _ _ => false) (fun _ => ⟨[1], some 7⟩) (.connection (some 0)) "m" =
      [.errorhandler 1 "m", .noticeHandler 7 "m"] := by
  decide

inductive HubOp
  | register (h : ℕ)
  | unregister (h : ℕ)
  deriving DecidableEq, Repr

def HubOp.apply : HubOp → Hub → Hub
  | .register h, w => w.register h
  | .unregister h, w => w.unregister h

def runHub : List HubOp → Hub → Hub
  | [], w => w
  | op :: ops, w => runHub ops (op.apply w)

/-- The registrations that no later call unregisters, in order. -/
def survivors : List HubOp → List ℕ
  | [] => []
  | .register h :: ops => (if .unregister h ∈ ops then [] else [h]) ++ survivors ops
  | .unregister _ :: ops => survivors ops

@[simp] theorem survivors_registers (xs : List ℕ) : survivors (xs.map .register) = xs := by
  induction xs with
  | nil => rfl
  | cons x xs ih => simp [survivors, ih]

theorem survivors_unregister (xs : List ℕ) (h : ℕ) (ops : List HubOp) :
    survivors (xs.map .register ++ .unregister h :: ops) =
      survivors ((xs.filter (· ≠ h)).map .register ++ ops) := by
  induction xs with
  | nil => rfl
  | cons x xs ih =>
    by_cases hx : x = h
    · subst hx
      simp [survivors, ih]
    · have hmem : (HubOp.unregister x ∈ xs.map .register ++ .unregister h :: ops) ↔
          HubOp.unregister x ∈ (xs.filter (· ≠ h)).map .register ++ ops := by
        simp [hx]
      rw [List.map_cons, List.cons_append, survivors, ih, List.filter_cons_of_pos (by simpa using hx),
        List.map_cons, List.cons_append, survivors]
      simp only [hmem]

/-- After any run of `register_errorhandler` and `unregister_errorhandler`
calls, the hub's errorhandlers are the registrations that no later call
unregistered, in registration order, counting the ones found at the start
as earlier registrations: an unregistration drops every earlier
registration of its handler, and a handler registered twice stays in the
list twice. The notice handler is untouched. -/
theorem errorhandlers_after_run (ops : List HubOp) (w : Hub) :
    (runHub ops w).errorhandlers = survivors (w.errorhandlers.map .register ++ ops) ∧
      (runHub ops w).noticeHandler = w.noticeHandler := by
  induction ops generalizing w with
  | nil => simp [runHub]
  | cons op ops ih =>
    obtain ⟨h₁, h₂⟩ := ih (op.apply w)
    refine ⟨h₁.trans ?_, h₂.trans (by cases op <;> rfl)⟩
    cases op with
    | register h => simp [HubOp.apply, Hub.register]
    | unregister h => simp [HubOp.apply, Hub.unregister, survivors_unregister]

end Pqxx.Notice
