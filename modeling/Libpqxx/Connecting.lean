import Libpqxx.Lifecycle

/-!
# Polling a non-blocking connection

A `connecting` holds a connection started with `connect_nonblocking` and two
flags: whether to wait until the socket can be read, and until it can be
written. `process` polls libpq through `poll_connect` and stores the two
flags it returns; a poll that throws leaves them as they were. `done` is
both flags clear, and `produce` refuses to hand the connection out before
that. Over every run of `process` calls the flags are those of the last poll
that returned, so a `connecting` that starts out waiting yields its
connection only after libpq has reported it complete and open.
-/

set_option autoImplicit false

namespace Pqxx.Lifecycle

inductive PollingStatus
  | failed
  | reading
  | writing
  | ok
  | active
  | unknown
  deriving DecidableEq, Repr

structure Poll where
  status : PollingStatus
  isOpen : Bool
  errMsg : String
  deriving DecidableEq, Repr

def pollConnect (p : Poll) : W (Bool × Bool) :=
  match p.status with
  | .failed => throw (.brokenConnection p.errMsg)
  | .reading => pure (true, false)
  | .writing => pure (false, true)
  | .ok => if !p.isOpen then throw (.brokenConnection p.errMsg) else pure (false, false)
  | .active => throw (.internalError "Nonblocking connection poll returned obsolete 'active' state.")
  | .unknown => throw (.internalError "Nonblocking connection poll returned unknown value.")

structure Connecting where
  conn : ℕ
  reading : Bool
  writing : Bool
  deriving DecidableEq, Repr

/-- Modelled from the spec: `done()` (in `connection.hxx`, absent here) is
neither waiting to read nor waiting to write. -/
def Connecting.done (c : Connecting) : Bool := !c.reading && !c.writing

def process (p : Poll) (c : Connecting) : W Connecting := do
  let (reading, writing) ← pollConnect p
  pure { c with reading, writing }

/-- A run of `process` calls on one `connecting`; a call that throws is
caught and the run goes on. -/
def processRun : List Poll → Connecting → World → Connecting × World
  | [], c, w => (c, w)
  | p :: ps, c, w =>
    match process p c w with
    | .ok c' w' => processRun ps c' w'
    | .error _ w' => processRun ps c w'

theorem pollConnect_cases (p : Poll) (w : World) :
    (∃ e, pollConnect p w = .error e w) ∨
      ∃ r wr, pollConnect p w = .ok (r, wr) w ∧
        (r = false → wr = false → p.status = .ok ∧ p.isOpen = true) := by
  unfold pollConnect
  cases h : p.status
  · exact .inl ⟨_, rfl⟩
  · exact .inr ⟨_, _, rfl, by simp⟩
  · exact .inr ⟨_, _, rfl, by simp⟩
  · cases ho : p.isOpen
    · exact .inl ⟨_, rfl⟩
    · exact .inr ⟨_, _, rfl, fun _ _ => ⟨rfl, rfl⟩⟩
  · exact .inl ⟨_, rfl⟩
  · exact .inl ⟨_, rfl⟩

theorem processRun_done (ps : List Poll) (c : Connecting) (w : World)
    (hd : (processRun ps c w).1.done = true) :
    (c.done = true ∧ ∀ q ∈ ps, ∃ e, pollConnect q w = .error e w) ∨
      ∃ pre p post, ps = pre ++ p :: post ∧ p.status = .ok ∧ p.isOpen = true ∧
        ∀ q ∈ post, ∃ e, pollConnect q w = .error e w := by
  induction ps generalizing c with
  | nil => exact .inl ⟨hd, by simp⟩
  | cons p ps ih =>
    rcases pollConnect_cases p w with ⟨e, he⟩ | ⟨r, wr, hr, hclear⟩
    · have hrun : processRun (p :: ps) c w = processRun ps c w := by
        simp only [processRun, process, bind_apply, he]
      rcases ih c (hrun ▸ hd) with ⟨hc, hq⟩ | ⟨pre, p', post, rfl, hs, ho, hq⟩
      · exact .inl ⟨hc, by simpa [he] using hq⟩
      · exact .inr ⟨p :: pre, p', post, rfl, hs, ho, hq⟩
    · have hrun : processRun (p :: ps) c w = processRun ps { c with reading := r, writing := wr } w := by
        simp only [processRun, process, bind_apply, hr, pure_apply]
      rcases ih _ (hrun ▸ hd) with ⟨hc, hq⟩ | ⟨pre, p', post, rfl, hs, ho, hq⟩
      · have hrw : r = false ∧ wr = false := by simpa [Connecting.done] using hc
        have ⟨hs, ho⟩ := hclear hrw.1 hrw.2
        exact .inr ⟨[], p, ps, rfl, hs, ho, hq⟩
      · exact .inr ⟨p :: pre, p', post, rfl, hs, ho, hq⟩

theorem processRun_world (ps : List Poll) (c : Connecting) (w : World) :
    (processRun ps c w).2 = w := by
  induction ps generalizing c with
  | nil => rfl
  | cons p ps ih =>
    rcases pollConnect_cases p w with ⟨e, he⟩ | ⟨r, wr, hr, -⟩
    · simp [processRun, process, he, ih]
    · simp [processRun, process, hr, ih]

/-- A `connecting` that starts out waiting hands its connection out only
after a poll reported the connection OK and open, with every poll after that
one throwing: whatever libpq answers, and whichever polls throw and are
caught. -/
theorem produce_only_after_open_poll (t : Transport) (ps : List Poll) (c : Connecting) (w : World)
    (hc : c.done = false)
    (h : ∃ i w', produce t (processRun ps c w).1.done c.conn (processRun ps c w).2 = .ok i w') :
    ∃ pre p post, ps = pre ++ p :: post ∧ p.status = .ok ∧ p.isOpen = true ∧
      ∀ q ∈ post, ∃ e, pollConnect q w = .error e w := by
  obtain ⟨i, w', h⟩ := h
  cases hd : (processRun ps c w).1.done
  · rw [hd] at h
    cases h
  rcases processRun_done ps c w hd with ⟨hc', -⟩ | h'
  · simp [hc] at hc'
  · exact h'

def acceptingServer : Transport := ⟨true, true, .ok, 3, 160000, ""⟩

def started : World := final (connectNonblocking acceptingServer World.initial)

def readFailOk : List Poll := [⟨.reading, false, ""⟩, ⟨.failed, false, "timeout"⟩, ⟨.ok, true, ""⟩]

theorem produce_after_read_fail_ok :
    (⟨0, false, true⟩ : Connecting).done = false ∧
      (∃ i w', produce acceptingServer (processRun readFailOk ⟨0, false, true⟩ started).1.done
        (⟨0, false, true⟩ : Connecting).conn (processRun readFailOk ⟨0, false, true⟩ started).2 =
          .ok i w') ∧
      ∃ pre p post, readFailOk = pre ++ p :: post ∧ p.status = .ok ∧ p.isOpen = true ∧
        ∀ q ∈ post, ∃ e, pollConnect q started = .error e started :=
  have h : ∃ i w', produce acceptingServer (processRun readFailOk ⟨0, false, true⟩ started).1.done
      (⟨0, false, true⟩ : Connecting).conn (processRun readFailOk ⟨0, false, true⟩ started).2 =
        .ok i w' := ⟨_, _, rfl⟩
  ⟨rfl, h, produce_only_after_open_poll acceptingServer readFailOk ⟨0, false, true⟩ started rfl h⟩

end Pqxx.Lifecycle
