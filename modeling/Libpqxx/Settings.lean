import Mathlib.Data.BitVec
import Libpqxx.Connection

/-!
# Socket mode, client encoding and cancellation

`set_blocking` switches the connection's socket between blocking and
non-blocking mode: on Windows with `ioctlsocket(FIONBIO)`, elsewhere by
reading the file status flags with `fcntl`, changing `O_NONBLOCK` and
writing them back. The two branches do opposite things. The Windows one
turns non-blocking mode on when `block` is false; the `fcntl` one sets
`O_NONBLOCK`, which makes the socket non-blocking, when `block` is true.

`set_client_encoding` and `encoding_id` turn libpq's error answer into
`failure` while the connection is open and `broken_connection` once it is
lost. `cancel_query` reports a failed cancel with the whole error buffer,
zeros included.
-/

set_option autoImplicit false

namespace Pqxx.Settings

inductive Platform
  | windows
  | posix
  deriving DecidableEq, Repr

structure Socket where
  flags : BitVec 32
  fionbio : Bool
  deriving DecidableEq, Repr

structure SockAnswers where
  getflFails : Bool
  setflOk : Bool
  ioctlOk : Bool
  errText : String

def setBlocking (platform : Platform) (oNonblock : BitVec 32) (a : SockAnswers) (block : Bool) :
    EStateM Error Socket Unit :=
  match platform with
  | .windows => do
    let mode := !block
    if !a.ioctlOk then throw (.brokenConnection ("Could not set socket's blocking mode: " ++ a.errText))
    modify fun s => { s with fionbio := mode }
  | .posix => do
    let s ← get
    let flags := if a.getflFails then -1 else s.flags
    if flags = -1 then throw (.brokenConnection ("Could not get socket state: " ++ a.errText))
    let flags := if block then flags ||| oNonblock else flags &&& ~~~oNonblock
    if !a.setflOk then throw (.brokenConnection ("Could not set socket's blocking mode: " ++ a.errText))
    set { s with flags }

def Socket.nonblocking (oNonblock : BitVec 32) : Platform → Socket → Bool
  | .windows, s => s.fionbio
  | .posix, s => s.flags &&& oNonblock == oNonblock

theorem setBlocking_windows_apply (m : BitVec 32) (a : SockAnswers) (block : Bool) (s : Socket) :
    setBlocking .windows m a block s =
      if a.ioctlOk then .ok () { s with fionbio := !block }
      else .error (.brokenConnection ("Could not set socket's blocking mode: " ++ a.errText)) s := by
  cases h : a.ioctlOk <;> simp [setBlocking, h]

theorem setBlocking_posix_apply (m : BitVec 32) (a : SockAnswers) (block : Bool) (s : Socket) :
    setBlocking .posix m a block s =
      if a.getflFails = true ∨ s.flags = -1 then
        .error (.brokenConnection ("Could not get socket state: " ++ a.errText)) s
      else if a.setflOk then
        .ok () { s with flags := if block then s.flags ||| m else s.flags &&& ~~~m }
      else .error (.brokenConnection ("Could not set socket's blocking mode: " ++ a.errText)) s := by
  cases hg : a.getflFails <;> cases hs : a.setflOk <;> simp [setBlocking, hg, hs] <;>
    split_ifs <;> rfl

theorem getLsbD_setOrClear (x m : BitVec 32) (block : Bool) (k : ℕ) :
    (if block then x ||| m else x &&& ~~~m).getLsbD k = if m.getLsbD k then block else x.getLsbD k := by
  cases block <;> cases hm : m.getLsbD k <;> cases hk : decide (k < 32) <;>
    simp_all [BitVec.getLsbD_or, BitVec.getLsbD_and, BitVec.getLsbD_not]

theorem setOrClear_and_mask (x m : BitVec 32) (hm : m ≠ 0) (block : Bool) :
    ((if block then x ||| m else x &&& ~~~m) &&& m == m) = block := by
  cases block
  · have hz : (x &&& ~~~m) &&& m = 0 := BitVec.eq_of_getLsbD_eq fun k => by simp
    simpa [hz] using hm.symm
  · have hmm : (x ||| m) &&& m = m := BitVec.eq_of_getLsbD_eq fun k => by
      cases h : m.getLsbD k <;> simp [h]
    simp [hmm]

theorem set_blocking_branches_disagree (oNonblock : BitVec 32) (hm : oNonblock ≠ 0)
    (a : SockAnswers) (block : Bool) (s s₁ s₂ : Socket)
    (h₁ : setBlocking .posix oNonblock a block s = .ok () s₁)
    (h₂ : setBlocking .windows oNonblock a block s = .ok () s₂) :
    s₁.nonblocking oNonblock .posix = block ∧
      (∀ k, oNonblock.getLsbD k = false → s₁.flags.getLsbD k = s.flags.getLsbD k) ∧
      s₂.nonblocking oNonblock .windows = !block := by
  rw [setBlocking_posix_apply] at h₁
  rw [setBlocking_windows_apply] at h₂
  by_cases hg : a.getflFails = true ∨ s.flags = -1
  · rw [if_pos hg] at h₁; cases h₁
  rw [if_neg hg] at h₁
  cases hs : a.setflOk <;> cases hi : a.ioctlOk <;>
    simp only [hs, hi, Bool.false_eq_true, if_true, if_false] at h₁ h₂ <;> cases h₁ <;> cases h₂
  refine ⟨setOrClear_and_mask s.flags oNonblock hm block, fun k hk => ?_, rfl⟩
  simp only [getLsbD_setOrClear, hk, Bool.false_eq_true, if_false]

def lostOrFailure (isOpen : Bool) (what : String) : Error :=
  if isOpen then .failure what else .brokenConnection "Lost connection to the database server."

def setClientEncoding (retval : ℤ) (isOpen : Bool) : Except Error Unit :=
  if retval = 0 then .ok ()
  else if retval = -1 then .error (lostOrFailure isOpen "Setting client encoding failed.")
  else .error (.internalError s!"Unexpected result from PQsetClientEncoding: {retval}")

def encodingId (enc : ℤ) (isOpen : Bool) : Except Error ℤ :=
  if enc = -1 then .error (lostOrFailure isOpen "Could not obtain client encoding.") else .ok enc

theorem lostOrFailure_broken (isOpen : Bool) (what msg : String) :
    lostOrFailure isOpen what = .brokenConnection msg ↔
      isOpen = false ∧ msg = "Lost connection to the database server." := by
  cases isOpen <;> simp [lostOrFailure, eq_comm]

inductive CancelError
  | badAlloc
  | sqlError (what query : String)
  deriving DecidableEq, Repr

structure CancelAnswers where
  getCancelOk : Bool
  cancelOk : Bool
  errText : List Char

def bufSize : ℕ := 500

def errbufAfter (text : List Char) : List Char :=
  (text ++ '\x00' :: List.replicate bufSize '\x00').take bufSize

def cancelQuery (a : CancelAnswers) : Except CancelError Unit :=
  if !a.getCancelOk then .error .badAlloc
  else if !a.cancelOk then .error (.sqlError (String.mk ((errbufAfter a.errText).take bufSize)) "[cancel]")
  else .ok ()

theorem cancel_error_fills_buffer (a : CancelAnswers) (h : a.errText.length < bufSize)
    (hg : a.getCancelOk = true) (hc : a.cancelOk = false) :
    cancelQuery a = .error (.sqlError
      (String.mk (a.errText ++ List.replicate (bufSize - a.errText.length) '\x00')) "[cancel]") := by
  have hbuf : errbufAfter a.errText = a.errText ++ List.replicate (bufSize - a.errText.length) '\x00' := by
    rw [errbufAfter, List.take_append_eq_append_take, List.take_of_length_le h.le]
    congr 1
    rw [← List.replicate_succ, List.take_replicate]
    congr 1
    omega
  have hlen : (a.errText ++ List.replicate (bufSize - a.errText.length) '\x00').length = bufSize := by
    simp only [List.length_append, List.length_replicate]
    omega
  simp [cancelQuery, hg, hc, hbuf, List.take_of_length_le hlen.le]

end Pqxx.Settings
