import Libpqxx.Connection

/-!
# The COPY streaming calls

`write_copy_line` hands a line to `PQputCopyData`, then a newline, and libpq
may refuse either; `end_copy_write` hands over the end of the data with
`PQputCopyEnd` and checks the COPY command's result; `read_copy_line` takes
one row from `PQgetCopyData` and leaves out its last byte, or, at the end of
the data, checks the result and returns a null buffer. During a COPY the
`PGconn` is the bytes libpq has taken for the server and whether it has
taken the end of the data; libpq's answers are inputs of each call.

The server reads text COPY data as rows, each ended by a newline, and sends
rows back the same way. Over that reading, lines written come back as they
were, and a line whose newline libpq refused is glued to the next one.
-/

set_option autoImplicit false

namespace Pqxx.Copy

open CheckCast

/-- The `PGconn` during a COPY: the bytes `PQputCopyData` has taken for the
server, in order, and whether `PQputCopyEnd` has taken the end of the data. -/
structure Wire where
  sent : List Char
  ended : Bool
  deriving DecidableEq, Repr

abbrev C := EStateM Error Wire

def putCopyData (answer : ℤ) (data : List Char) : C ℤ := do
  if 0 < answer then modify fun w => { w with sent := w.sent ++ data }
  pure answer

def putCopyEnd (answer : ℤ) : C ℤ := do
  if answer = 1 then modify fun w => { w with ended := true }
  pure answer

/-- `make_result(PQgetResult(m_conn), q, *q)` on the COPY command's result;
what it throws, if anything, is an input. -/
def makeResult (resultError : Option Error) : C Unit :=
  match resultError with
  | some e => throw e
  | none => pure ()

structure PutAnswers where
  line : ℤ
  newline : ℤ
  errMsg : String

def writeCopyLine (a : PutAnswers) (line : List Char) : C Unit := do
  if let .error w := checkCast int ⟨64, true⟩ line.length "Line in stream_to is too long to process." then
    throw (.rangeError w)
  if (← putCopyData a.line line) ≤ 0 then throw (.failure ("Error writing to table: " ++ a.errMsg))
  if (← putCopyData a.newline ['\n']) ≤ 0 then throw (.failure ("Error writing to table: " ++ a.errMsg))

structure EndAnswers where
  putEnd : ℤ
  resultError : Option Error
  errMsg : String

def endCopyWrite (a : EndAnswers) : C Unit := do
  let res ← putCopyEnd a.putEnd
  if res = -1 then throw (.failure ("Write to table failed: " ++ a.errMsg))
  else if res = 0 then throw (.internalError "table write is inexplicably asynchronous")
  else if res = 1 then makeResult a.resultError
  else throw (.internalError s!"unexpected result {res} from PQputCopyEnd()")

inductive CopyData
  | failed
  | finished
  | later
  | row (buf : List Char)
  deriving DecidableEq, Repr

def CopyData.lineLen : CopyData → ℤ
  | .failed => -2
  | .finished => -1
  | .later => 0
  | .row buf => buf.length

def CopyData.buf : CopyData → Option (List Char)
  | .row buf => some buf
  | _ => none

def readCopyLine (d : CopyData) (resultError : Option Error) (errMsg : String) :
    C (Option (List Char) × ℕ) := do
  let lineLen := d.lineLen
  if lineLen = -2 then throw (.failure ("Reading of table data failed: " ++ errMsg))
  else if lineLen = -1 then
    makeResult resultError
    pure (none, 0)
  else if lineLen = 0 then throw (.internalError "table read inexplicably went asynchronous")
  else pure (d.buf, lineLen.toNat - 1)

@[simp] theorem putCopyData_apply (answer : ℤ) (data : List Char) (w : Wire) :
    putCopyData answer data w =
      .ok answer (if 0 < answer then { w with sent := w.sent ++ data } else w) := by
  by_cases h : 0 < answer <;> simp [putCopyData, h]

@[simp] theorem putCopyEnd_apply (answer : ℤ) (w : Wire) :
    putCopyEnd answer w = .ok answer (if answer = 1 then { w with ended := true } else w) := by
  by_cases h : answer = 1 <;> simp [putCopyEnd, h]

@[simp] theorem makeResult_none (w : Wire) : makeResult none w = .ok () w := rfl

@[simp] theorem makeResult_some (e : Error) (w : Wire) : makeResult (some e) w = .error e w := rfl

theorem checkCast_lineLength (n : ℕ) (d : String) :
    checkCast int ⟨64, true⟩ n d = if int.max < n then .error s!"Cast overflow: {d}" else .ok n := by
  simp only [checkCast, IntType.lowest, IntType.max, int, if_true, true_and, not_true, false_and]
  split_ifs <;> first | rfl | omega | contradiction

theorem writeCopyLine_apply (a : PutAnswers) (line : List Char) (w : Wire) :
    writeCopyLine a line w =
      if int.max < line.length then
        .error (.rangeError "Cast overflow: Line in stream_to is too long to process.") w
      else if a.line ≤ 0 then .error (.failure ("Error writing to table: " ++ a.errMsg)) w
      else if a.newline ≤ 0 then
        .error (.failure ("Error writing to table: " ++ a.errMsg)) { w with sent := w.sent ++ line }
      else .ok () { w with sent := w.sent ++ line ++ ['\n'] } := by
  rw [writeCopyLine, checkCast_lineLength]
  by_cases hn : int.max < line.length
  · simp only [if_pos hn]; rfl
  simp only [if_neg hn]
  by_cases h₁ : a.line ≤ 0
  · simp [h₁, not_lt.mpr h₁]
  by_cases h₂ : a.newline ≤ 0
  · simp [h₁, lt_of_not_le h₁, h₂, not_lt.mpr h₂]
  · simp [h₁, lt_of_not_le h₁, h₂, lt_of_not_le h₂]

theorem endCopyWrite_apply (a : EndAnswers) (w : Wire) :
    endCopyWrite a w =
      if a.putEnd = -1 then .error (.failure ("Write to table failed: " ++ a.errMsg)) w
      else if a.putEnd = 0 then .error (.internalError "table write is inexplicably asynchronous") w
      else if a.putEnd = 1 then makeResult a.resultError { w with ended := true }
      else .error (.internalError s!"unexpected result {a.putEnd} from PQputCopyEnd()") w := by
  by_cases h : a.putEnd = 1 <;> simp [endCopyWrite, h]
  split_ifs <;> rfl

@[simp] theorem readCopyLine_row (buf : List Char) (re : Option Error) (msg : String) (w : Wire)
    (h : buf ≠ []) : readCopyLine (.row buf) re msg w = .ok (some buf, buf.length - 1) w := by
  have : buf.length ≠ 0 := fun h' => h (List.length_eq_zero.1 h')
  simp [readCopyLine, CopyData.lineLen, CopyData.buf, this]

@[simp] theorem readCopyLine_finished (re : Option Error) (msg : String) (w : Wire) :
    readCopyLine .finished re msg w = (makeResult re >>= fun _ => pure (none, 0)) w := by
  simp [readCopyLine, CopyData.lineLen]

/-- Modelled from the spec: the server reads text COPY data as rows, each
ended by a newline, and bytes after the last newline as a last row; `acc`
is the row read so far. -/
def rowsFrom (acc : List Char) : List Char → List (List Char)
  | [] => if acc = [] then [] else [acc]
  | c :: cs => if c = '\n' then acc :: rowsFrom [] cs else rowsFrom (acc ++ [c]) cs

def rows (data : List Char) : List (List Char) := rowsFrom [] data

def framed (ls : List (List Char)) : List Char := ls.flatMap (· ++ ['\n'])

@[simp] theorem framed_nil : framed [] = [] := rfl

@[simp] theorem framed_append (ls ls' : List (List Char)) :
    framed (ls ++ ls') = framed ls ++ framed ls' := List.flatMap_append ..

@[simp] theorem framed_singleton (l : List Char) : framed [l] = l ++ ['\n'] := by simp [framed]

theorem rowsFrom_line (acc line rest : List Char) (h : '\n' ∉ line) :
    rowsFrom acc (line ++ '\n' :: rest) = (acc ++ line) :: rows rest := by
  induction line generalizing acc with
  | nil => simp [rowsFrom, rows]
  | cons c cs ih =>
    have hc : c ≠ '\n' := fun hc => h (hc ▸ List.mem_cons_self _ _)
    simp [rowsFrom, hc, ih _ (fun h' => h (List.mem_cons_of_mem _ h'))]

theorem rows_framed_append (ls : List (List Char)) (rest : List Char) (h : ∀ l ∈ ls, '\n' ∉ l) :
    rows (framed ls ++ rest) = ls ++ rows rest := by
  induction ls with
  | nil => rfl
  | cons l ls ih =>
    have hl : framed (l :: ls) ++ rest = l ++ '\n' :: (framed ls ++ rest) := by
      simp [framed, List.flatMap_cons]
    rw [hl, rows, rowsFrom_line [] l _ (h l (List.mem_cons_self _ _)),
      ih fun l' hl' => h l' (List.mem_cons_of_mem _ hl')]
    rfl

theorem rows_framed (ls : List (List Char)) (h : ∀ l ∈ ls, '\n' ∉ l) : rows (framed ls) = ls := by
  simpa [rows, rowsFrom] using rows_framed_append ls [] h

/-- libpq took a call's line and refused its newline. -/
def PutAnswers.Tears (a : PutAnswers) : Prop := 0 < a.line ∧ a.newline ≤ 0

instance (a : PutAnswers) : Decidable a.Tears := inferInstanceAs (Decidable (_ ∧ _))

/-- A run of `write_copy_line` calls, each with what libpq answers to it; a
call that throws is caught and the run goes on. The lines of the calls that
returned, and the wire after the run. -/
def writeRun : List (PutAnswers × List Char) → Wire → List (List Char) × Wire
  | [], w => ([], w)
  | (a, l) :: calls, w =>
    match writeCopyLine a l w with
    | .ok _ w' => let r := writeRun calls w'; (l :: r.1, r.2)
    | .error _ w' => writeRun calls w'

theorem writeCopyLine_framed (a : PutAnswers) (l : List Char) (ls : List (List Char)) (e : Bool)
    (ht : ¬a.Tears) :
    writeCopyLine a l ⟨framed ls, e⟩ = .ok () ⟨framed (ls ++ [l]), e⟩ ∨
      ∃ err, writeCopyLine a l ⟨framed ls, e⟩ = .error err ⟨framed ls, e⟩ := by
  rw [writeCopyLine_apply]
  by_cases hn : int.max < l.length
  · simp only [if_pos hn]
    exact .inr ⟨_, rfl⟩
  by_cases h₁ : a.line ≤ 0
  · simp only [if_neg hn, if_pos h₁]
    exact .inr ⟨_, rfl⟩
  have h₂ : ¬a.newline ≤ 0 := fun h₂ => ht ⟨lt_of_not_le h₁, h₂⟩
  simp only [if_neg hn, if_neg h₁, if_neg h₂]
  exact .inl (by rw [framed_append, framed_singleton, List.append_assoc])

theorem writeRun_framed (calls : List (PutAnswers × List Char)) (ls : List (List Char)) (e : Bool)
    (ht : ∀ c ∈ calls, ¬c.1.Tears) :
    (writeRun calls ⟨framed ls, e⟩).2 = ⟨framed (ls ++ (writeRun calls ⟨framed ls, e⟩).1), e⟩ := by
  induction calls generalizing ls with
  | nil => simp [writeRun]
  | cons c calls ih =>
    obtain ⟨a, l⟩ := c
    have ht' : ∀ c ∈ calls, ¬c.1.Tears := fun c hc => ht c (List.mem_cons_of_mem _ hc)
    rcases writeCopyLine_framed a l ls e (ht _ (List.mem_cons_self _ _)) with h | ⟨err, h⟩
    · simp only [writeRun, h, ih _ ht', List.append_assoc, List.singleton_append]
    · simp only [writeRun, h, ih _ ht']

theorem writeRun_sublist (calls : List (PutAnswers × List Char)) (w : Wire) :
    List.Sublist (writeRun calls w).1 (calls.map Prod.snd) := by
  induction calls generalizing w with
  | nil => simp [writeRun]
  | cons c calls ih =>
    obtain ⟨a, l⟩ := c
    simp only [writeRun, List.map_cons]
    split
    · exact (ih _).cons₂ l
    · exact (ih _).cons l

/-- Modelled from the spec: a caller reads lines with `read_copy_line` until
the null buffer that ends the data, taking each line as the buffer cut at
the returned length; one `PQgetCopyData` answer per call. -/
def readLines (resultError : Option Error) (errMsg : String) : List CopyData → C (List (List Char))
  | [] => pure []
  | d :: ds => do
    let (buf, len) ← readCopyLine d resultError errMsg
    match buf with
    | none => pure []
    | some b => return b.take len :: (← readLines resultError errMsg ds)

/-- Modelled from the spec: what `PQgetCopyData` answers while the server
sends the rows `rs` as text COPY data, each row with its newline, and then
the end of the data. -/
def copyOut (rs : List (List Char)) : List CopyData := rs.map (fun r => .row (r ++ ['\n'])) ++ [.finished]

theorem readLines_cons (re : Option Error) (msg : String) (d : CopyData) (ds : List CopyData) (w : Wire) :
    readLines re msg (d :: ds) w = match readCopyLine d re msg w with
      | .ok (none, _) w₁ => .ok [] w₁
      | .ok (some b, len) w₁ => match readLines re msg ds w₁ with
        | .ok ls w₂ => .ok (b.take len :: ls) w₂
        | .error e w₂ => .error e w₂
      | .error e w₁ => .error e w₁ := by
  simp only [readLines, bind_apply]
  rcases readCopyLine d re msg w with ⟨⟨_ | b, len⟩, w₁⟩ | ⟨e, w₁⟩ <;> simp
  cases readLines re msg ds w₁ <;> rfl

theorem readCopyLine_ok (d : CopyData) (re : Option Error) (msg : String) (w w' : Wire)
    (buf : Option (List Char)) (len : ℕ) (h : readCopyLine d re msg w = .ok (buf, len) w') :
    w' = w ∧ ((d = .finished ∧ re = none ∧ buf = none ∧ len = 0) ∨
      ∃ b, d = .row b ∧ b ≠ [] ∧ buf = some b ∧ len = b.length - 1) := by
  cases d with
  | failed => cases h
  | later => cases h
  | finished =>
    cases re with
    | none => cases h; exact ⟨rfl, .inl ⟨rfl, rfl, rfl, rfl⟩⟩
    | some e => cases h
  | row b =>
    by_cases hb : b = []
    · subst hb; cases h
    · rw [readCopyLine_row b re msg w hb] at h
      cases h
      exact ⟨rfl, .inr ⟨b, rfl, hb, rfl, rfl⟩⟩

/-- Whatever libpq answers, reading lines until the null buffer hands out
exactly the rows `PQgetCopyData` returned, in order, each without its last
byte, and stops only at the end of the data with the COPY's result checked
(or when the caller stops asking); an error answer or "come back later"
throws instead. -/
theorem read_lines_only_rows (re : Option Error) (msg : String) (ds : List CopyData) (w w' : Wire)
    (ls : List (List Char)) (h : readLines re msg ds w = .ok ls w') :
    w' = w ∧ ∃ (bufs : List (List Char)) (rest : List CopyData), ds = bufs.map .row ++ rest ∧
      (∀ b ∈ bufs, b ≠ []) ∧ ls = bufs.map (fun b => b.take (b.length - 1)) ∧
      (rest = [] ∨ ∃ rest', rest = .finished :: rest' ∧ re = none) := by
  induction ds generalizing ls with
  | nil =>
    simp only [readLines, pure_apply] at h
    cases h
    exact ⟨rfl, [], [], rfl, List.forall_mem_nil _, rfl, .inl rfl⟩
  | cons d ds ih =>
    rw [readLines_cons] at h
    rcases hd : readCopyLine d re msg w with ⟨⟨_ | b, len⟩, w₁⟩ | ⟨e, w₁⟩ <;> rw [hd] at h
    · obtain ⟨hw, ⟨rfl, rfl, -, -⟩ | ⟨b, -, -, hb, -⟩⟩ := readCopyLine_ok d re msg w _ _ _ hd
      · cases h
        exact ⟨hw, [], _, rfl, List.forall_mem_nil _, rfl, .inr ⟨ds, rfl, rfl⟩⟩
      · cases hb
    · obtain ⟨hw, ⟨-, -, hb, -⟩ | ⟨b', rfl, hne, hb, rfl⟩⟩ := readCopyLine_ok d re msg w _ _ _ hd
      · cases hb
      cases hb
      rw [hw] at h
      dsimp only at h
      rcases hr : readLines re msg ds w with ⟨ls', w₂⟩ | ⟨e, w₂⟩ <;> rw [hr] at h <;> cases h
      obtain ⟨rfl, bufs, rest, rfl, hbufs, rfl, hrest⟩ := ih ls' hr
      exact ⟨rfl, b :: bufs, rest, rfl, List.forall_mem_cons.2 ⟨hne, hbufs⟩, rfl, hrest⟩
    · cases h

theorem read_lines_only_rows_one_row :
    readLines none "" [.row ['a', '\n'], .finished] ⟨[], false⟩ = .ok [['a']] ⟨[], false⟩ ∧
      (⟨[], false⟩ : Wire) = ⟨[], false⟩ ∧ ∃ (bufs : List (List Char)) (rest : List CopyData),
        [.row ['a', '\n'], .finished] = bufs.map .row ++ rest ∧ (∀ b ∈ bufs, b ≠ []) ∧
        [['a']] = bufs.map (fun b => b.take (b.length - 1)) ∧
        (rest = [] ∨ ∃ rest', rest = .finished :: rest' ∧ (none : Option Error) = none) :=
  ⟨rfl, read_lines_only_rows none "" _ _ _ _ rfl⟩

theorem readLines_copyOut (rs : List (List Char)) (re : Option Error) (msg : String) (w : Wire) :
    readLines re msg (copyOut rs) w = match re with
      | none => .ok rs w
      | some e => .error e w := by
  induction rs with
  | nil => cases re <;> rfl
  | cons r rs ih =>
    rw [copyOut, List.map_cons, List.cons_append, readLines_cons,
      readCopyLine_row _ re msg w (by simp)]
    dsimp only
    rw [← copyOut, ih]
    cases re <;> simp

/-- A COPY FROM session, read back by a COPY TO of the rows the server
stored: whatever libpq answers to each `write_copy_line`, as long as it
never takes a line and refuses its newline, and whichever calls throw and
are caught, `end_copy_write` ends the data and the lines read back are
exactly the lines of the calls that returned, in order. -/
theorem copy_round_trip (calls : List (PutAnswers × List Char)) (e : EndAnswers) (msg : String)
    (w₀ : Wire) (hnl : ∀ c ∈ calls, '\n' ∉ c.2) (ht : ∀ c ∈ calls, ¬c.1.Tears)
    (he : e.putEnd = 1 ∧ e.resultError = none) :
    ∃ w, endCopyWrite e (writeRun calls ⟨[], false⟩).2 = .ok () w ∧ w.ended = true ∧
      readLines none msg (copyOut (rows w.sent)) w₀ = .ok (writeRun calls ⟨[], false⟩).1 w₀ := by
  have hw := writeRun_framed calls [] false ht
  have hl : ∀ l ∈ (writeRun calls ⟨[], false⟩).1, '\n' ∉ l := fun l hl => by
    obtain ⟨c, hc, rfl⟩ := List.mem_map.1 ((writeRun_sublist calls _).subset hl)
    exact hnl c hc
  refine ⟨⟨framed (writeRun calls ⟨[], false⟩).1, true⟩, ?_, rfl, ?_⟩
  · rw [show (⟨[], false⟩ : Wire) = ⟨framed [], false⟩ from rfl, hw, endCopyWrite_apply]
    simp [he]
  · rw [rows_framed _ hl, readLines_copyOut]

theorem copy_round_trip_with_refused_line :
    (∀ c ∈ [(⟨1, 1, ""⟩, ['a', 'b']), (⟨-1, 1, "connection lost"⟩, ['c']), (⟨1, 1, ""⟩, [])],
        '\n' ∉ (c : PutAnswers × List Char).2) ∧
      (∀ c ∈ [(⟨1, 1, ""⟩, ['a', 'b']), (⟨-1, 1, "connection lost"⟩, ['c']), (⟨1, 1, ""⟩, [])],
        ¬(c : PutAnswers × List Char).1.Tears) ∧
      ((⟨1, none, ""⟩ : EndAnswers).putEnd = 1 ∧ (⟨1, none, ""⟩ : EndAnswers).resultError = none) ∧
      ∃ w, endCopyWrite ⟨1, none, ""⟩ (writeRun [(⟨1, 1, ""⟩, ['a', 'b']),
          (⟨-1, 1, "connection lost"⟩, ['c']), (⟨1, 1, ""⟩, [])] ⟨[], false⟩).2 = .ok () w ∧
        w.ended = true ∧
        readLines none "" (copyOut (rows w.sent)) ⟨[], false⟩ = .ok (writeRun [(⟨1, 1, ""⟩, ['a', 'b']),
          (⟨-1, 1, "connection lost"⟩, ['c']), (⟨1, 1, ""⟩, [])] ⟨[], false⟩).1 ⟨[], false⟩ :=
  ⟨by decide, by decide, ⟨rfl, rfl⟩, copy_round_trip _ _ _ _ (by decide) (by decide) ⟨rfl, rfl⟩⟩

end Pqxx.Copy
