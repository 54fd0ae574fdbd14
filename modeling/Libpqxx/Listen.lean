import Libpqxx.Dispatch

/-!
# Listening: the handler map and the legacy receivers

`listen` keeps one handler per channel in `m_notification_handlers`;
`add_receiver` and `remove_receiver` keep the legacy receivers in
`m_receivers`. Each issues its own `LISTEN` and `UNLISTEN` commands without
consulting the other table. The channels the session listens on follow from
the commands in the log, applied in order.

`listen` changes its map only once `exec` has returned, and `exec` polls
notifications after the command; `remove_receiver` erases the receiver
before it quotes the channel, and turns any exception into a notice. So the
session keeps in step with the tables over the calls whose answers are clean
and that drop no channel the other table still holds, and a failure between
a command and its table update puts them out of step.
-/

set_option autoImplicit false

namespace Pqxx.Listen

open Dispatch

def listen (a : Answers) (channel : String) (handler : Option ℕ) : M Unit := do
  let c := (← get).self
  if c.trans.isSome then
    throw (.usageError s!"Attempting to listen for notifications on '{channel}' while transaction is active.")
  let pos := c.notificationHandlers.lowerBound channel
  match handler with
  | some h =>
    if pos = some channel then
      update fun c => { c with notificationHandlers := c.notificationHandlers.insertOrAssign channel h }
    else do
      quoteName a
      exec a (.listen channel)
      update fun c => { c with notificationHandlers := c.notificationHandlers.emplaceHint channel h }
  | none =>
    match pos with
    | some k => do
      quoteName a
      exec a (.unlisten channel)
      update fun c => { c with notificationHandlers := c.notificationHandlers.erase k }
    | none => pure ()

def insertBefore (r : Receiver) : List Receiver → List Receiver
  | [] => [r]
  | x :: xs => if x.channel = r.channel then r :: x :: xs else x :: insertBefore r xs

def addReceiver (a : Answers) (n : Option Receiver) : M Unit := do
  let some r := n | throw (.argumentError "Null receiver registered")
  let c := (← get).self
  if c.receivers.any (·.channel = r.channel) then
    update fun c => { c with receivers := insertBefore r c.receivers }
  else do
    quoteName a
    execCommand a (.listen r.channel)
    update fun c => { c with receivers := c.receivers ++ [r] }

def removeReceiver (a : Answers) (t : Option Receiver) : M Unit := do
  let some r := t | pure ()
  tryCatch (do
    let c := (← get).self
    if r ∈ c.receivers then
      let gone := (c.receivers.filter (·.channel = r.channel)).length = 1
      update fun c => { c with receivers := c.receivers.erase r }
      if gone then
        quoteName a
        exec a (.unlisten r.channel)
    else
      emit (.notice s!"Attempt to remove unknown receiver '{r.channel}'\n"))
    (fun e => emit (.notice e.what))

def cleanAnswers : Answers := ⟨true, none, true, fun _ _ => .returns, fun _ _ => false, ""⟩

def handlerOnB : Sys :=
  ⟨⟨some 0, some 0, HandlerMap.empty.insertOrAssign "b" 1, [], none, 0⟩, fun _ => ⟨[], none⟩, [], []⟩

/-- Clearing the handler of `"a"`, which has none, sends `UNLISTEN a` and
erases the entry of `"b"`, the key `lower_bound` found. -/
theorem listen_clear_erases_next_channel :
    (final (listen cleanAnswers "a" none handlerOnB)).log = [.exec (.unlisten "a")] ∧
      (final (listen cleanAnswers "a" none handlerOnB)).self.notificationHandlers.find "b" = none := by
  have hab : (['a'] : List Char) ≤ ['b'] := by decide
  simp [listen, handlerOnB, cleanAnswers, HandlerMap.lowerBound, HandlerMap.insertOrAssign,
    HandlerMap.empty, Entries.put, Entries.lowerBound, hab, quoteName, exec, execCommand, getNotifs,
    drain, HandlerMap.find, HandlerMap.erase, Entries.remove, Entries.get?]

/-- Answers under which `quote_name` succeeds, the command's result passes,
and the poll `exec` makes after it reads input and meets no handler that
throws. -/
def Clean (a : Answers) : Prop :=
  a.quoteOk = true ∧ a.execError = none ∧ a.consumeOk = true ∧ ∀ h n, a.handlerThrows h n = false

def quiet : Effect → Bool
  | .exec _ => false
  | _ => true

theorem deliverReceivers_quiet (a : Answers) (n : Notif) (rs : List Receiver) :
    ∀ e ∈ deliverReceivers a n rs, quiet e = true := by
  induction rs with
  | nil => simp [deliverReceivers]
  | cons r rs ih =>
    intro e he
    simp only [deliverReceivers, List.mem_cons, List.mem_append, List.mem_map] at he
    rcases he with (rfl | ⟨_, -, rfl⟩) | he
    · rfl
    · rfl
    · exact ih e he

theorem dispatchEffects_quiet (a : Answers) (c : Conn) (ns : List Notif) :
    ∀ e ∈ ns.flatMap (dispatchEffects a c), quiet e = true := by
  intro e he
  obtain ⟨n, -, he⟩ := List.mem_flatMap.1 he
  rcases List.mem_append.1 he with he | he
  · exact deliverReceivers_quiet a n _ e he
  · obtain ⟨_, -, rfl⟩ := List.mem_map.1 he
    rfl

theorem quoteName_clean {a : Answers} (ha : Clean a) (s : Sys) : quoteName a s = .ok () s := by
  simp [quoteName, ha.1]

theorem exec_clean {a : Answers} (ha : Clean a) (cmd : Command) (s : Sys) :
    ∃ s', exec a cmd s = .ok () s' ∧ s'.self = s.self ∧
      ∃ extra, s'.log = s.log ++ .exec cmd :: extra ∧ ∀ e ∈ extra, quiet e = true := by
  obtain ⟨-, he, hc, hh⟩ := ha
  let s₁ : Sys := { s with log := s.log ++ [.exec cmd] }
  obtain ⟨m, s', hg⟩ := getNotifs_ok a hc hh s₁
  obtain ⟨taken, ⟨hself, -, -, hlog⟩, -⟩ := getNotifs_spec a s₁
  rw [hg] at hself hlog
  refine ⟨s', by simp [exec, execCommand, he, s₁, hg], hself, _, by simpa [s₁] using hlog,
    dispatchEffects_quiet a _ taken⟩

section Calls

variable {a : Answers} {s : Sys} {c : String}

theorem listen_in_transaction (ht : s.self.trans.isSome) (h : Option ℕ) :
    listen a c h s = .error (.usageError
      s!"Attempting to listen for notifications on '{c}' while transaction is active.") s := by
  simp [listen, ht]

theorem listen_replace (ht : s.self.trans = none) (hf : (s.self.notificationHandlers.find c).isSome)
    (h : ℕ) : listen a c (some h) s = .ok () { s with self := { s.self with
      notificationHandlers := s.self.notificationHandlers.insertOrAssign c h } } := by
  simp [listen, ht, (HandlerMap.lowerBound_eq_self_iff _ _).2 hf]

theorem listen_insert (ha : Clean a) (ht : s.self.trans = none)
    (hf : s.self.notificationHandlers.find c = none) (h : ℕ) :
    ∃ s', listen a c (some h) s = .ok () s' ∧
      s'.self = { s.self with
        notificationHandlers := s.self.notificationHandlers.insertOrAssign c h } ∧
      ∃ extra, s'.log = s.log ++ .exec (.listen c) :: extra ∧ ∀ e ∈ extra, quiet e = true := by
  have hlb : s.self.notificationHandlers.lowerBound c ≠ some c := by
    simp [HandlerMap.lowerBound_eq_self_iff, hf]
  obtain ⟨s₂, hex, hself, extra, hlog, hq⟩ := exec_clean ha (.listen c) s
  refine ⟨{ s₂ with self := { s₂.self with
    notificationHandlers := s₂.self.notificationHandlers.emplaceHint c h } },
    by simp [listen, ht, hlb, quoteName_clean ha, hex], ?_, extra, hlog, hq⟩
  simp [hself, HandlerMap.emplaceHint, hf]

theorem listen_poll_throws {s₁ : Sys} {e : Error} (ht : s.self.trans = none)
    (hf : s.self.notificationHandlers.find c = none) (hq : a.quoteOk = true) (he : a.execError = none)
    (hg : getNotifs a { s with log := s.log ++ [.exec (.listen c)] } = .error e s₁) (h : ℕ) :
    listen a c (some h) s = .error e s₁ := by
  have hlb : s.self.notificationHandlers.lowerBound c ≠ some c := by
    simp [HandlerMap.lowerBound_eq_self_iff, hf]
  simp [listen, ht, hlb, quoteName, hq, exec, execCommand, he, hg]

theorem listen_erase (ha : Clean a) (ht : s.self.trans = none) {k : String}
    (hk : s.self.notificationHandlers.lowerBound c = some k) :
    ∃ s', listen a c none s = .ok () s' ∧
      s'.self = { s.self with notificationHandlers := s.self.notificationHandlers.erase k } ∧
      ∃ extra, s'.log = s.log ++ .exec (.unlisten c) :: extra ∧ ∀ e ∈ extra, quiet e = true := by
  obtain ⟨s₂, hex, hself, extra, hlog, hq⟩ := exec_clean ha (.unlisten c) s
  exact ⟨{ s₂ with self := { s₂.self with
    notificationHandlers := s₂.self.notificationHandlers.erase k } },
    by simp [listen, ht, hk, quoteName_clean ha, hex], by simp [hself], extra, hlog, hq⟩

theorem listen_clear_unwatched (ht : s.self.trans = none)
    (hk : s.self.notificationHandlers.lowerBound c = none) : listen a c none s = .ok () s := by
  simp [listen, ht, hk]

theorem addReceiver_join {r : Receiver} (hr : ∃ x ∈ s.self.receivers, x.channel = r.channel) :
    addReceiver a (some r) s =
      .ok () { s with self := { s.self with receivers := insertBefore r s.self.receivers } } := by
  simp [addReceiver, List.any_eq_true, hr]

theorem addReceiver_first (ha : Clean a) {r : Receiver}
    (hr : ∀ x ∈ s.self.receivers, x.channel ≠ r.channel) :
    addReceiver a (some r) s = .ok () { s with
      self := { s.self with receivers := s.self.receivers ++ [r] },
      log := s.log ++ [.exec (.listen r.channel)] } := by
  have hn : ¬∃ x ∈ s.self.receivers, x.channel = r.channel := fun ⟨x, hx, he⟩ => hr x hx he
  simp [addReceiver, List.any_eq_true, hn, quoteName_clean ha, execCommand, ha.2.1]

theorem removeReceiver_unknown {r : Receiver} (hr : r ∉ s.self.receivers) :
    removeReceiver a (some r) s = .ok ()
      { s with log := s.log ++ [.notice s!"Attempt to remove unknown receiver '{r.channel}'\n"] } := by
  simp [removeReceiver, hr]

theorem removeReceiver_keep {r : Receiver} (hr : r ∈ s.self.receivers)
    (hn : (s.self.receivers.filter (·.channel = r.channel)).length ≠ 1) :
    removeReceiver a (some r) s =
      .ok () { s with self := { s.self with receivers := s.self.receivers.erase r } } := by
  simp [removeReceiver, hr, hn]

theorem removeReceiver_last (ha : Clean a) {r : Receiver} (hr : r ∈ s.self.receivers)
    (hn : (s.self.receivers.filter (·.channel = r.channel)).length = 1) :
    ∃ s', removeReceiver a (some r) s = .ok () s' ∧
      s'.self = { s.self with receivers := s.self.receivers.erase r } ∧
      ∃ extra, s'.log = s.log ++ .exec (.unlisten r.channel) :: extra ∧ ∀ e ∈ extra, quiet e = true := by
  obtain ⟨s₂, hex, hself, extra, hlog, hq⟩ :=
    exec_clean ha (.unlisten r.channel) { s with self := { s.self with receivers := s.self.receivers.erase r } }
  exact ⟨s₂, by simp [removeReceiver, hr, hn, quoteName_clean ha, hex], hself, extra, hlog, hq⟩

end Calls

def applyEffect (ch : String) (b : Bool) : Effect → Bool
  | .exec (.listen c) => if c = ch then true else b
  | .exec (.unlisten c) => if c = ch then false else b
  | _ => b

def listening (log : List Effect) (ch : String) : Bool := log.foldl (applyEffect ch) false

theorem listening_quiet (l extra : List Effect) (h : ∀ e ∈ extra, quiet e = true) (ch : String) :
    listening (l ++ extra) ch = listening l ch := by
  unfold listening
  rw [List.foldl_append]
  generalize l.foldl (applyEffect ch) false = b
  induction extra generalizing b with
  | nil => rfl
  | cons e es ih =>
    have he : applyEffect ch b e = b := by
      cases e with
      | exec cmd => simp [quiet] at h
      | _ => rfl
    rw [List.foldl_cons, he, ih (fun x hx => h x (List.mem_cons_of_mem _ hx))]

theorem listening_command (l extra : List Effect) (cmd : Command)
    (h : ∀ e ∈ extra, quiet e = true) (ch : String) :
    listening (l ++ .exec cmd :: extra) ch = applyEffect ch (listening l ch) (.exec cmd) := by
  rw [← List.singleton_append, ← List.append_assoc, listening_quiet _ _ h]
  simp [listening, List.foldl_append]

def watched (c : Conn) (ch : String) : Prop :=
  (c.notificationHandlers.find ch).isSome ∨ ∃ r ∈ c.receivers, r.channel = ch

instance (c : Conn) (ch : String) : Decidable (watched c ch) :=
  inferInstanceAs (Decidable (_ ∨ _))

/-- The session listens on exactly the channels the two tables hold. -/
def Agrees (s : Sys) : Prop := ∀ ch, listening s.log ch = true ↔ watched s.self ch

section Agrees

variable {s s' : Sys} (extra : List Effect)

theorem agrees_quiet (h : Agrees s) (hlog : s'.log = s.log ++ extra)
    (hq : ∀ e ∈ extra, quiet e = true) (hw : ∀ ch, watched s'.self ch ↔ watched s.self ch) :
    Agrees s' := by
  intro ch
  rw [hlog, listening_quiet _ _ hq, hw]
  exact h ch

theorem agrees_listen {c : String} (h : Agrees s) (hlog : s'.log = s.log ++ .exec (.listen c) :: extra)
    (hq : ∀ e ∈ extra, quiet e = true) (hw : ∀ ch, watched s'.self ch ↔ ch = c ∨ watched s.self ch) :
    Agrees s' := by
  intro ch
  rw [hlog, listening_command _ _ _ hq, hw, ← h ch]
  by_cases hc : c = ch
  · subst hc; simp [applyEffect]
  · simp [applyEffect, hc, Ne.symm hc]

theorem agrees_unlisten {c : String} (h : Agrees s)
    (hlog : s'.log = s.log ++ .exec (.unlisten c) :: extra) (hq : ∀ e ∈ extra, quiet e = true)
    (hw : ∀ ch, watched s'.self ch ↔ ch ≠ c ∧ watched s.self ch) : Agrees s' := by
  intro ch
  rw [hlog, listening_command _ _ _ hq, hw, ← h ch]
  by_cases hc : c = ch
  · subst hc; simp [applyEffect]
  · simp [applyEffect, hc, Ne.symm hc]

end Agrees

theorem mem_insertBefore {r x : Receiver} {l : List Receiver} : x ∈ insertBefore r l ↔ x = r ∨ x ∈ l := by
  induction l with
  | nil => simp [insertBefore]
  | cons y ys ih =>
    unfold insertBefore
    split_ifs <;> simp [ih, or_left_comm]

theorem channels_erase_keep {r : Receiver} {l : List Receiver} (hr : r ∈ l)
    (hn : (l.filter (·.channel = r.channel)).length ≠ 1) (ch : String) :
    (∃ x ∈ l.erase r, x.channel = ch) ↔ ∃ x ∈ l, x.channel = ch := by
  refine ⟨fun ⟨x, hx, he⟩ => ⟨x, List.mem_of_mem_erase hx, he⟩, fun ⟨x, hx, he⟩ => ?_⟩
  by_cases hxr : x = r
  · subst hxr
    have hin : x ∈ l.filter (·.channel = x.channel) := List.mem_filter.2 ⟨hx, by simp⟩
    have hpos : 0 < ((l.filter (·.channel = x.channel)).erase x).length := by
      rw [List.length_erase_of_mem hin]
      have := List.length_pos_of_mem hin
      omega
    obtain ⟨y, hy⟩ := List.exists_mem_of_length_pos hpos
    rw [List.erase_filter] at hy
    obtain ⟨hy, hyc⟩ := List.mem_filter.1 hy
    exact ⟨y, hy, by simpa [he] using hyc⟩
  · exact ⟨x, (List.mem_erase_of_ne hxr).2 hx, he⟩

theorem channels_erase_last {r : Receiver} {l : List Receiver} (hr : r ∈ l)
    (hn : (l.filter (·.channel = r.channel)).length = 1) (ch : String) :
    (∃ x ∈ l.erase r, x.channel = ch) ↔ ch ≠ r.channel ∧ ∃ x ∈ l, x.channel = ch := by
  have hone : l.filter (·.channel = r.channel) = [r] := by
    obtain ⟨y, hy⟩ := List.length_eq_one.1 hn
    have hin : r ∈ l.filter (·.channel = r.channel) := List.mem_filter.2 ⟨hr, by simp⟩
    rw [hy, List.mem_singleton] at hin
    rw [hy, hin]
  have hnone : ∀ x ∈ l.erase r, x.channel ≠ r.channel := by
    intro x hx hc
    have : x ∈ (l.filter (·.channel = r.channel)).erase r := by
      rw [List.erase_filter]; exact List.mem_filter.2 ⟨hx, by simpa using hc⟩
    simp [hone] at this
  constructor
  · rintro ⟨x, hx, rfl⟩
    exact ⟨hnone x hx, x, List.mem_of_mem_erase hx, rfl⟩
  · rintro ⟨hc, x, hx, rfl⟩
    exact ⟨x, (List.mem_erase_of_ne fun h => hc (by rw [h])).2 hx, rfl⟩

section Watched

variable (c : Conn) (ch : String)

theorem watched_insertOrAssign (k : String) (v : ℕ) :
    watched { c with notificationHandlers := c.notificationHandlers.insertOrAssign k v } ch ↔
      ch = k ∨ watched c ch := by
  by_cases hk : k = ch
  · subst hk; simp [watched]
  · simp [watched, hk, Ne.symm hk]

theorem watched_erase (k : String) (hk : ∀ r ∈ c.receivers, r.channel ≠ k) :
    watched { c with notificationHandlers := c.notificationHandlers.erase k } ch ↔
      ch ≠ k ∧ watched c ch := by
  by_cases hc : k = ch
  · subst hc; simpa [watched] using hk
  · simp [watched, hc, Ne.symm hc]

theorem watched_receivers {r : Receiver} {rs : List Receiver}
    (hrs : ∀ x, x ∈ rs ↔ x = r ∨ x ∈ c.receivers) :
    watched { c with receivers := rs } ch ↔ ch = r.channel ∨ watched c ch := by
  simp only [watched, hrs, or_and_right, exists_or, exists_eq_left, eq_comm (a := ch)]
  exact or_left_comm

end Watched

inductive ListenOp
  | listen (a : Answers) (channel : String) (handler : Option ℕ)
  | addReceiver (a : Answers) (r : Option Receiver)
  | removeReceiver (a : Answers) (r : Option Receiver)

def ListenOp.call : ListenOp → M Unit
  | .listen a c h => Pqxx.Listen.listen a c h
  | .addReceiver a r => Pqxx.Listen.addReceiver a r
  | .removeReceiver a r => Pqxx.Listen.removeReceiver a r

/-- What a call needs, at the state it finds, to keep the session in step
with the two tables: clean answers; no call that drops a channel the other
table still holds; and no `listen` with an empty handler for a channel
without an entry while `lower_bound` names a later one. -/
def Allowed (s : Sys) : ListenOp → Prop
  | .listen a _ (some _) => Clean a
  | .listen a c none => Clean a ∧
      ((s.self.notificationHandlers.find c).isSome → ∀ r ∈ s.self.receivers, r.channel ≠ c) ∧
      (s.self.notificationHandlers.find c = none → s.self.notificationHandlers.lowerBound c = none)
  | .addReceiver a _ => Clean a
  | .removeReceiver _ none => True
  | .removeReceiver a (some r) => Clean a ∧ (r ∈ s.self.receivers →
      (s.self.receivers.filter (·.channel = r.channel)).length = 1 →
      s.self.notificationHandlers.find r.channel = none)

theorem agrees_listen_call (a : Answers) (c : String) (hd : Option ℕ) (s : Sys) (h : Agrees s)
    (hop : Allowed s (.listen a c hd)) : Agrees (final (listen a c hd s)) := by
  by_cases ht : s.self.trans.isSome
  · rw [listen_in_transaction ht]; exact h
  have ht' : s.self.trans = none := Option.not_isSome_iff_eq_none.1 ht
  cases hd with
  | some hd =>
    cases hf : s.self.notificationHandlers.find c with
    | some v =>
      rw [listen_replace ht' (by simp [hf]), final_ok]
      refine agrees_quiet [] h (by simp) (by simp) fun ch => ?_
      rw [watched_insertOrAssign]
      exact or_iff_right_of_imp (by rintro rfl; simp [watched, hf])
    | none =>
      obtain ⟨s', hl, hself, extra, hlog, hq⟩ := listen_insert hop ht' hf hd
      rw [hl, final_ok]
      exact agrees_listen extra h hlog hq fun ch => hself ▸ watched_insertOrAssign _ _ _ _
  | none =>
    obtain ⟨ha, hrecv, hslip⟩ := hop
    cases hk : s.self.notificationHandlers.lowerBound c with
    | none => rw [listen_clear_unwatched ht' hk]; exact h
    | some k =>
      have hf : (s.self.notificationHandlers.find c).isSome := by
        cases hfc : s.self.notificationHandlers.find c
        · simp [hslip hfc] at hk
        · rfl
      obtain rfl : k = c :=
        Option.some.inj (hk.symm.trans ((HandlerMap.lowerBound_eq_self_iff _ _).2 hf))
      obtain ⟨s', hl, hself, extra, hlog, hq⟩ := listen_erase ha ht' hk
      rw [hl, final_ok]
      exact agrees_unlisten extra h hlog hq fun ch => hself ▸ watched_erase _ _ _ (hrecv hf)

theorem agrees_addReceiver_call (a : Answers) (r : Option Receiver) (s : Sys) (h : Agrees s)
    (hop : Allowed s (.addReceiver a r)) : Agrees (final (addReceiver a r s)) := by
  cases r with
  | none => exact h
  | some r =>
    by_cases hr : ∃ x ∈ s.self.receivers, x.channel = r.channel
    · rw [addReceiver_join hr, final_ok]
      refine agrees_quiet [] h (by simp) (by simp) fun ch => ?_
      rw [watched_receivers _ _ fun _ => mem_insertBefore]
      exact or_iff_right_of_imp (by rintro rfl; exact .inr hr)
    · rw [addReceiver_first hop (fun x hx he => hr ⟨x, hx, he⟩), final_ok]
      exact agrees_listen (c := r.channel) [] h (by simp) (by simp) fun ch =>
        watched_receivers _ _ fun _ => by simp [or_comm]

theorem agrees_removeReceiver_call (a : Answers) (r : Option Receiver) (s : Sys) (h : Agrees s)
    (hop : Allowed s (.removeReceiver a r)) : Agrees (final (removeReceiver a r s)) := by
  cases r with
  | none => exact h
  | some r =>
    obtain ⟨ha, hlast⟩ := hop
    by_cases hr : r ∈ s.self.receivers
    · by_cases hn : (s.self.receivers.filter (·.channel = r.channel)).length = 1
      · obtain ⟨s', hl, hself, extra, hlog, hq⟩ := removeReceiver_last ha hr hn
        rw [hl, final_ok]
        refine agrees_unlisten extra h hlog hq fun ch => ?_
        rw [hself]
        simp only [watched, channels_erase_last hr hn]
        by_cases hc : r.channel = ch
        · subst hc; simp [hlast hr hn]
        · simp [hc, Ne.symm hc]
      · rw [removeReceiver_keep hr hn, final_ok]
        refine agrees_quiet [] h (by simp) (by simp) fun ch => ?_
        simp only [watched, channels_erase_keep hr hn]
    · rw [removeReceiver_unknown hr, final_ok]
      exact agrees_quiet _ h rfl (by simp [quiet]) fun _ => Iff.rfl

theorem agrees_step (op : ListenOp) (s : Sys) (h : Agrees s) (hop : Allowed s op) :
    Agrees (final (op.call s)) := by
  cases op with
  | listen a c hd => exact agrees_listen_call a c hd s h hop
  | addReceiver a r => exact agrees_addReceiver_call a r s h hop
  | removeReceiver a r => exact agrees_removeReceiver_call a r s h hop

def runAll : List ListenOp → Sys → Sys
  | [], s => s
  | op :: ops, s => runAll ops (final (op.call s))

def AllowedRun : List ListenOp → Sys → Prop
  | [], _ => True
  | op :: ops, s => Allowed s op ∧ AllowedRun ops (final (op.call s))

/-- Over any interleaving of `listen`, `add_receiver` and `remove_receiver`
in which `quote_name` and every command succeed, every poll after a command
reads input and meets no throwing handler, no call drops a channel the other
table still holds, and no empty handler is set for an unwatched channel below
an existing key, the session listens on exactly the handler map's keys and
the receivers' channels after every call. -/
theorem listening_agrees_with_tables (ops : List ListenOp) (s : Sys) (h : Agrees s)
    (hops : AllowedRun ops s) : Agrees (runAll ops s) := by
  induction ops generalizing s with
  | nil => exact h
  | cons op ops ih => exact ih _ (agrees_step op s h hops.1) hops.2

def fresh : Sys :=
  ⟨⟨some 0, some 0, HandlerMap.empty, [], none, 0⟩, fun _ => ⟨[], none⟩, [], []⟩

theorem fresh_agrees : Agrees fresh := by
  intro ch
  simp [fresh, listening, watched]

theorem cleanAnswers_clean : Clean cleanAnswers := ⟨rfl, rfl, rfl, fun _ _ => rfl⟩

def receiverOnC : Receiver := ⟨1, "c"⟩

theorem listening_agrees_receiver_then_handler :
    Agrees fresh ∧
      AllowedRun [.addReceiver cleanAnswers (some receiverOnC), .listen cleanAnswers "d" (some 1)] fresh ∧
      Agrees (runAll [.addReceiver cleanAnswers (some receiverOnC), .listen cleanAnswers "d" (some 1)]
        fresh) :=
  have hrun : AllowedRun [.addReceiver cleanAnswers (some receiverOnC),
      .listen cleanAnswers "d" (some 1)] fresh := ⟨cleanAnswers_clean, cleanAnswers_clean, trivial⟩
  ⟨fresh_agrees, hrun, listening_agrees_with_tables _ fresh fresh_agrees hrun⟩

def quoteFails : Answers := ⟨false, none, true, fun _ _ => .returns, fun _ _ => false, "out of memory"⟩

def handlersThrow : Answers := ⟨true, none, true, fun _ _ => .returns, fun _ _ => true, ""⟩

def waitingOnB : Sys :=
  ⟨⟨some 0, some 0, HandlerMap.empty.insertOrAssign "b" 1, [], none, 0⟩, fun _ => ⟨[], none⟩,
    [⟨"b", "", 7⟩], [.exec (.listen "b")]⟩

theorem waitingOnB_agrees : Agrees waitingOnB := by
  intro ch
  by_cases h : "b" = ch
  · subst h; simp [waitingOnB, listening, applyEffect, watched]
  · simp [waitingOnB, listening, applyEffect, watched, h, Ne.symm h]

/-- Each run leaves the session and the tables out of step. With every
command succeeding, a receiver and a handler share `"c"` and removing the
receiver sends `UNLISTEN c`. `quote_name` fails after `remove_receiver`
erased the last receiver of `"c"`, so no `UNLISTEN` is sent. The poll `exec`
makes after `LISTEN c` throws, because `PQconsumeInput` fails or a handler
throws, so `listen` sent the command but never installs the handler. -/
theorem listening_diverges_from_tables :
    ¬ Agrees (runAll [.addReceiver cleanAnswers (some receiverOnC), .listen cleanAnswers "c" (some 1),
      .removeReceiver cleanAnswers (some receiverOnC)] fresh) ∧
    ¬ Agrees (runAll [.addReceiver cleanAnswers (some receiverOnC),
      .removeReceiver quoteFails (some receiverOnC)] fresh) ∧
    ¬ Agrees (runAll [.listen connectionLost "c" (some 1)] fresh) ∧
    Agrees waitingOnB ∧ ¬ Agrees (runAll [.listen handlersThrow "c" (some 2)] waitingOnB) :=
  ⟨fun h => absurd ((h "c").2 (.inl rfl)) (by decide),
    fun h => absurd ((h "c").1 (by decide)) (by decide),
    fun h => absurd ((h "c").1 (by decide)) (by decide),
    waitingOnB_agrees,
    fun h => by
      have hg : getNotifs handlersThrow { waitingOnB with log := waitingOnB.log ++ [.exec (.listen "c")] } =
          .error .callback ⟨waitingOnB.self, waitingOnB.hubs, [],
            [.exec (.listen "b"), .exec (.listen "c"), .handle 1 ⟨"b", "", 7⟩]⟩ := rfl
      have hrun := listen_poll_throws (by rfl) (by rfl) (by rfl) (by rfl) hg 2
      simp only [runAll, ListenOp.call, hrun, final_error] at h
      exact absurd ((h "c").1 (by decide)) (by decide)⟩

end Pqxx.Listen
