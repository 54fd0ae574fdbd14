import Mathlib.Data.String.Basic
import Libpqxx.Connection

/-!
# The connection string a connection reports

`connection_string` walks the options `PQconninfo` returns and writes
`keyword=value` for each one whose value is set and differs from its
prevailing default, with a single blank between settings and no quoting.
What it writes is read here with libpq's keyword/value syntax, as libpq's
documentation gives it: blanks between settings, blanks around `=` allowed,
a value either bare (a backslash takes the next character literally) or in
single quotes (with `\'` and `\\`). The reading recovers exactly the settings
that differ from their defaults when every written value needs no quoting.
-/

set_option autoImplicit false

namespace Pqxx.ConnectionString

structure ConninfoOption where
  keyword : String
  envvar : Option String
  compiled : Option String
  val : Option String
  deriving DecidableEq, Repr

def getDefault (env : String → Option String) (opt : ConninfoOption) : Option String :=
  match opt.envvar with
  | none => opt.compiled
  | some var =>
    match env var with
    | none => opt.compiled
    | some v => some v

def appendParam (env : String → Option String) (buf : String) (param : ConninfoOption) : String :=
  match param.val with
  | none => buf
  | some val =>
    if (getDefault env param).all (· != val) then
      ((if buf.isEmpty then buf else buf.push ' ') ++ param.keyword).push '=' ++ val
    else buf

def connectionString (params : Option (List ConninfoOption)) (env : String → Option String) : M String := do
  if (← get).self.conn.isNone then
    throw (.usageError "Can't get connection string: connection is not open.")
  let some params := params | throw .badAlloc
  return params.foldl (appendParam env) ""

theorem connectionString_apply (params : Option (List ConninfoOption)) (env : String → Option String) (s : Sys) :
    connectionString params env s =
      match s.self.conn, params with
      | none, _ => .error (.usageError "Can't get connection string: connection is not open.") s
      | some _, none => .error .badAlloc s
      | some _, some ps => .ok (ps.foldl (appendParam env) "") s := by
  cases hc : s.self.conn <;> cases params <;> simp [connectionString, hc]

def nonDefaultSettings (env : String → Option String) (params : List ConninfoOption) : List (String × String) :=
  params.filterMap fun p => p.val.bind fun v => if getDefault env p = some v then none else some (p.keyword, v)

def settingText (kv : String × String) : List Char := kv.1.data ++ '=' :: kv.2.data

def joinSettings : List (String × String) → List Char
  | [] => []
  | kv :: rest => settingText kv ++ rest.flatMap fun kv => ' ' :: settingText kv

section Writer

variable (env : String → Option String)

theorem all_ne_iff (o : Option String) (v : String) : o.all (· != v) = true ↔ o ≠ some v := by
  cases o <;> simp

theorem appendParam_data (buf : String) (p : ConninfoOption) :
    (appendParam env buf p).data =
      match p.val.bind fun v => if getDefault env p = some v then none else some (p.keyword, v) with
      | none => buf.data
      | some kv => (if buf.data = [] then [] else buf.data ++ [' ']) ++ settingText kv := by
  cases hv : p.val with
  | none => simp [appendParam, hv]
  | some v =>
    by_cases hd : getDefault env p = some v
    · simp [appendParam, hv, hd]
    · have hall := (all_ne_iff _ v).2 hd
      rcases buf with ⟨_ | ⟨c, cs⟩⟩ <;>
        simp [appendParam, hv, hd, hall, settingText, String.isEmpty_iff, String.ext_iff]

theorem foldl_appendParam_of_ne (params : List ConninfoOption) (buf : String) (hbuf : buf.data ≠ []) :
    (params.foldl (appendParam env) buf).data =
      buf.data ++ (nonDefaultSettings env params).flatMap fun kv => ' ' :: settingText kv := by
  induction params generalizing buf with
  | nil => simp [nonDefaultSettings]
  | cons p ps ih =>
    have hp := appendParam_data env buf p
    simp only [nonDefaultSettings, List.filterMap_cons, List.foldl_cons] at hp ⊢
    split at hp <;> rename_i heq <;> simp only [heq]
    · rw [← hp] at hbuf
      rw [ih _ hbuf, hp, nonDefaultSettings]
    · have hne : (appendParam env buf p).data ≠ [] := by simp [hp, hbuf]
      rw [ih _ hne, hp, if_neg hbuf, nonDefaultSettings]
      simp

theorem foldl_appendParam (params : List ConninfoOption) :
    (params.foldl (appendParam env) "").data = joinSettings (nonDefaultSettings env params) := by
  induction params with
  | nil => rfl
  | cons p ps ih =>
    have hp := appendParam_data env "" p
    simp only [nonDefaultSettings, List.filterMap_cons, List.foldl_cons] at hp ⊢
    split at hp <;> rename_i heq <;> simp only [heq]
    · have : appendParam env "" p = "" := String.ext hp
      rw [this, ih, nonDefaultSettings]
    · have hne : (appendParam env "" p).data ≠ [] := by simp [hp, settingText]
      rw [foldl_appendParam_of_ne env ps _ hne, hp, joinSettings]
      simp [nonDefaultSettings]

end Writer

def isSpace (c : Char) : Bool :=
  c = ' ' || c = '\t' || c = '\n' || c = '\x0b' || c = '\x0c' || c = '\r'

inductive ReadState
  | gap
  | keyword (k : List Char)
  | beforeEq (k : List Char)
  | beforeValue (k : List Char)
  | plain (k v : List Char)
  | plainEsc (k v : List Char)
  | quoted (k v : List Char)
  | quotedEsc (k v : List Char)
  deriving DecidableEq, Repr

/-- Modelled from libpq's documentation of keyword/value connection strings:
one character. `none` is a syntax error. -/
def readChar : List (String × String) × ReadState → Char → Option (List (String × String) × ReadState)
  | (acc, .gap), c =>
    if isSpace c then some (acc, .gap) else if c = '=' then none else some (acc, .keyword [c])
  | (acc, .keyword k), c =>
    if c = '=' then some (acc, .beforeValue k)
    else if isSpace c then some (acc, .beforeEq k) else some (acc, .keyword (k ++ [c]))
  | (acc, .beforeEq k), c =>
    if isSpace c then some (acc, .beforeEq k) else if c = '=' then some (acc, .beforeValue k) else none
  | (acc, .beforeValue k), c =>
    if isSpace c then some (acc, .beforeValue k)
    else if c = '\'' then some (acc, .quoted k [])
    else if c = '\\' then some (acc, .plainEsc k []) else some (acc, .plain k [c])
  | (acc, .plain k v), c =>
    if isSpace c then some (acc ++ [(⟨k⟩, ⟨v⟩)], .gap)
    else if c = '\\' then some (acc, .plainEsc k v) else some (acc, .plain k (v ++ [c]))
  | (acc, .plainEsc k v), c => some (acc, .plain k (v ++ [c]))
  | (acc, .quoted k v), c =>
    if c = '\\' then some (acc, .quotedEsc k v)
    else if c = '\'' then some (acc ++ [(⟨k⟩, ⟨v⟩)], .gap) else some (acc, .quoted k (v ++ [c]))
  | (acc, .quotedEsc k v), c => some (acc, .quoted k (v ++ [c]))

def readEnd : List (String × String) × ReadState → Option (List (String × String))
  | (acc, .gap) => some acc
  | (acc, .beforeValue k) => some (acc ++ [(⟨k⟩, "")])
  | (acc, .plain k v) | (acc, .plainEsc k v) => some (acc ++ [(⟨k⟩, ⟨v⟩)])
  | (_, .keyword _) | (_, .beforeEq _) | (_, .quoted _ _) | (_, .quotedEsc _ _) => none

def readConninfo (s : String) : Option (List (String × String)) :=
  s.data.foldlM readChar ([], .gap) >>= readEnd

def Keyword (k : String) : Prop := k.data ≠ [] ∧ ∀ c ∈ k.data, isSpace c = false ∧ c ≠ '='

def PlainValue (v : String) : Prop :=
  v.data ≠ [] ∧ ∀ c ∈ v.data, isSpace c = false ∧ c ≠ '\'' ∧ c ≠ '\\'

instance : DecidablePred Keyword := fun _ => inferInstanceAs (Decidable (_ ∧ _))

instance : DecidablePred PlainValue := fun _ => inferInstanceAs (Decidable (_ ∧ _))

section Reader

variable (acc : List (String × String))

theorem foldlM_keyword (k cs : List Char) (hcs : ∀ c ∈ cs, isSpace c = false ∧ c ≠ '=') :
    cs.foldlM readChar (acc, .keyword k) = some (acc, .keyword (k ++ cs)) := by
  induction cs generalizing k with
  | nil => simp
  | cons c cs ih =>
    obtain ⟨hs, he⟩ := hcs c (.head _)
    simp only [List.foldlM_cons, readChar, if_neg he, hs, Bool.false_eq_true, if_false, Option.bind_eq_bind,
      Option.some_bind]
    rw [ih _ fun d hd => hcs d (.tail _ hd)]
    simp

theorem foldlM_plain (k v cs : List Char) (hcs : ∀ c ∈ cs, isSpace c = false ∧ c ≠ '\'' ∧ c ≠ '\\') :
    cs.foldlM readChar (acc, .plain k v) = some (acc, .plain k (v ++ cs)) := by
  induction cs generalizing v with
  | nil => simp
  | cons c cs ih =>
    obtain ⟨hs, -, hb⟩ := hcs c (.head _)
    simp only [List.foldlM_cons, readChar, if_neg hb, hs, Bool.false_eq_true, if_false, Option.bind_eq_bind,
      Option.some_bind]
    rw [ih _ fun d hd => hcs d (.tail _ hd)]
    simp

theorem foldlM_setting (kv : String × String) (hk : Keyword kv.1) (hv : PlainValue kv.2) :
    (settingText kv).foldlM readChar (acc, .gap) = some (acc, .plain kv.1.data kv.2.data) := by
  obtain ⟨⟨_ | ⟨k, ks⟩⟩, ⟨_ | ⟨v, vs⟩⟩⟩ := kv
  · exact absurd rfl hk.1
  · exact absurd rfl hk.1
  · exact absurd rfl hv.1
  obtain ⟨hks, hke⟩ := hk.2 k (.head _)
  obtain ⟨hvs, hvq, hvb⟩ := hv.2 v (.head _)
  simp only [settingText, List.cons_append, List.foldlM_cons, List.foldlM_append, readChar, hks, hke,
    Bool.false_eq_true, if_false, Option.bind_eq_bind, Option.some_bind]
  rw [foldlM_keyword acc [k] ks fun c hc => hk.2 c (.tail _ hc)]
  simp only [Option.some_bind, List.foldlM_cons, readChar, if_pos, hvs, hvq, hvb, Bool.false_eq_true,
    if_false]
  rw [foldlM_plain acc _ [v] vs fun c hc => hv.2 c (.tail _ hc)]
  rfl

theorem read_settings_after (sel : List (String × String))
    (hsel : ∀ kv ∈ sel, Keyword kv.1 ∧ PlainValue kv.2) (k v : List Char) :
    ((sel.flatMap fun kv => ' ' :: settingText kv).foldlM readChar (acc, .plain k v)).bind readEnd =
      some (acc ++ (⟨k⟩, ⟨v⟩) :: sel) := by
  induction sel generalizing acc k v with
  | nil => simp [readEnd]
  | cons kv rest ih =>
    obtain ⟨hk, hv⟩ := hsel kv (.head _)
    have hsp : isSpace ' ' = true := rfl
    simp only [List.flatMap_cons, List.cons_append, List.foldlM_cons, List.foldlM_append, readChar, hsp,
      if_true, Option.bind_eq_bind, Option.some_bind, foldlM_setting _ kv hk hv]
    rw [ih _ (fun x hx => hsel x (.tail _ hx))]
    simp

end Reader

theorem readConninfo_joinSettings (sel : List (String × String))
    (hsel : ∀ kv ∈ sel, Keyword kv.1 ∧ PlainValue kv.2) :
    readConninfo ⟨joinSettings sel⟩ = some sel := by
  cases sel with
  | nil => rfl
  | cons kv rest =>
    obtain ⟨hk, hv⟩ := hsel kv (.head _)
    simp only [readConninfo, joinSettings, List.foldlM_append, foldlM_setting _ kv hk hv, Option.bind_eq_bind,
      Option.some_bind]
    exact read_settings_after [] rest (fun x hx => hsel x (.tail _ hx)) _ _

/-- `connection_string` on an open connection returns a text that libpq's
syntax reads back as exactly the settings that differ from their prevailing
defaults, in array order, when each such value is non-empty and free of
blanks, quotes and backslashes and each such keyword non-empty and free of
blanks and `=`. -/
theorem connection_string_round_trip (params : List ConninfoOption) (env : String → Option String) (s : Sys)
    (hopen : s.self.conn.isSome)
    (hsel : ∀ kv ∈ nonDefaultSettings env params, Keyword kv.1 ∧ PlainValue kv.2) :
    ∃ out, connectionString (some params) env s = .ok out s ∧
      readConninfo out = some (nonDefaultSettings env params) := by
  obtain ⟨pg, hc⟩ := Option.isSome_iff_exists.1 hopen
  refine ⟨_, by rw [connectionString_apply, hc], ?_⟩
  rw [← readConninfo_joinSettings _ hsel, ← foldl_appendParam]

def shopOptions : List ConninfoOption :=
  [⟨"host", some "PGHOST", none, some "db.local"⟩, ⟨"port", some "PGPORT", some "5432", some "5432"⟩,
    ⟨"dbname", none, none, some "shop"⟩]

def openConn : Sys := ⟨⟨some 0, none, HandlerMap.empty, [], none, 0⟩, fun _ => ⟨[], none⟩, [], []⟩

theorem connection_string_shop :
    openConn.self.conn.isSome ∧
      (∀ kv ∈ nonDefaultSettings (fun _ => none) shopOptions, Keyword kv.1 ∧ PlainValue kv.2) ∧
      ∃ out, connectionString (some shopOptions) (fun _ => none) openConn = .ok out openConn ∧
        readConninfo out = some (nonDefaultSettings (fun _ => none) shopOptions) :=
  ⟨rfl, by decide,
    connection_string_round_trip shopOptions (fun _ => none) openConn rfl (by decide)⟩

/-- A value with a blank is written bare, so the text reads as two settings,
the second taken from inside the value. -/
theorem connection_string_blank_splits_value :
    nonDefaultSettings (fun _ => none) [⟨"application_name", none, none, some "x host=evil"⟩] =
        [("application_name", "x host=evil")] ∧
      connectionString (some [⟨"application_name", none, none, some "x host=evil"⟩]) (fun _ => none) openConn =
        .ok "application_name=x host=evil" openConn ∧
      readConninfo "application_name=x host=evil" = some [("application_name", "x"), ("host", "evil")] :=
  ⟨by decide, rfl, by decide⟩

end Pqxx.ConnectionString
