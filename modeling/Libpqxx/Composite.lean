import Mathlib.Data.BitVec
import Mathlib.Tactic.LinearCombination

/-! Composite values: `composite_size_buffer`, `composite_into_buf` and
`parse_composite` with the one-byte glyph scanner. A field is its text, or
null; a character stands for one byte. The helpers that write and read one
field live in `array-composite.hxx`, which is not in this tree; they are
modelled from the spec. `std::size_t` is `BitVec w`. -/

set_option autoImplicit false

namespace Pqxx.Composite

abbrev Field := Option (List Char)

/-- Modelled from the spec: `size_buffer` of a text field (a string trait,
absent here): the text and its terminating zero, and zero for null. -/
def sizeBuffer : Field → ℕ
  | none => 0
  | some s => s.length + 1

def emptyCompositeSize : ℕ := 3

def compositeSizeBuffer (w : ℕ) (fields : List Field) : BitVec w :=
  match fields with
  | [] => BitVec.ofNat w emptyCompositeSize
  | _ => 1 + 3 * BitVec.ofNat w fields.length +
      (fields.map fun f => 2 * BitVec.ofNat w (sizeBuffer f) - 2).foldr (· + ·) 0 + 1

def compositeSizeBufferOf (w : ℕ) (sizes : List (BitVec w)) : BitVec w :=
  match sizes with
  | [] => BitVec.ofNat w emptyCompositeSize
  | _ => 1 + 3 * BitVec.ofNat w sizes.length + (sizes.map fun s => 2 * s - 2).foldr (· + ·) 0 + 1

def escape (s : List Char) : List Char :=
  s.flatMap fun c => if c = '"' ∨ c = '\\' then ['\\', c] else [c]

/-- Modelled from the spec: `write_composite_field` (absent here). A null
field is written as nothing; any other in double quotes, escaped; each is
followed by a comma. -/
def writeCompositeField : Field → List Char
  | none => [',']
  | some s => '"' :: escape s ++ ['"', ',']

def compositeIntoBuf (w : ℕ) (space : BitVec w) (fields : List Field) : Except String (List Char) :=
  if space < compositeSizeBuffer w fields then
    .error "Buffer space may not be enough to represent composite value."
  else if fields = [] then .ok ['(', ')', '\x00']
  else
    let written := '(' :: fields.flatMap writeCompositeField
    .ok ((if 1 < fields.length then written.dropLast else written) ++ [')', '\x00'])

/-- One field that is a lone double quote: the estimate is 7 bytes and
`composite_into_buf` writes 8, its comma left in place. -/
theorem composite_single_field_overruns :
    compositeSizeBuffer 64 [some ['"']] = 7 ∧
      compositeIntoBuf 64 7 [some ['"']] = .ok ['(', '"', '\\', '"', '"', ',', ')', '\x00'] :=
  ⟨by decide, rfl⟩

/-- Modelled from the spec: the rest of a double-quoted field after its
opening quote (absent here). A backslash takes the next glyph literally, two
double quotes stand for one, and a lone double quote closes the field. -/
def parseQuoted : List Char → Option (List Char × List Char)
  | [] => none
  | ['\\'] => none
  | '\\' :: c :: rest => (parseQuoted rest).map fun p => (c :: p.1, p.2)
  | '"' :: '"' :: rest => (parseQuoted rest).map fun p => ('"' :: p.1, p.2)
  | '"' :: rest => some ([], rest)
  | c :: rest => (parseQuoted rest).map fun p => (c :: p.1, p.2)

def endsUnquoted (c : Char) : Bool := c = ',' ∨ c = ')' ∨ c = ']'

/-- Modelled from the spec: `parse_composite_field` (absent here). An empty
field is null, a quoted one is read by `parseQuoted`, any other runs to the
next comma or closing bracket. Then a comma must follow, or for the last
field a closing parenthesis that ends the text. -/
def parseCompositeField (last : Bool) (input : List Char) : Option (Field × List Char) := do
  let (field, rest) ← match input with
    | [] => none
    | ',' :: _ => some (none, input)
    | ')' :: _ => some (none, input)
    | '"' :: r => (parseQuoted r).map fun p => (some p.1, p.2)
    | _ => some (some (input.takeWhile (!endsUnquoted ·)), input.dropWhile (!endsUnquoted ·))
  match last, rest with
  | false, ',' :: r => some (field, r)
  | true, [')'] => some (field, [])
  | _, _ => none

def parseFields : ℕ → List Char → Option (List Field)
  | 0, _ => none
  | 1, input => (parseCompositeField true input).map fun p => [p.1]
  | n + 2, input => do
    let (f, rest) ← parseCompositeField false input
    let fs ← parseFields (n + 1) rest
    pure (f :: fs)

def parseComposite (n : ℕ) (text : List Char) : Except (Option String) (List Field) :=
  match text with
  | [] => .error (some "Cannot parse composite value from empty string.")
  | '(' :: rest => match parseFields n rest with
    | some fields => .ok fields
    | none => .error none
  | _ => .error (some ("Invalid composite value string: " ++ String.mk text))

/-- One field `a`: the text written is `("a",)`, which `parse_composite`
refuses for one field. -/
theorem composite_single_field_unparsable :
    compositeIntoBuf 64 (compositeSizeBuffer 64 [some ['a']]) [some ['a']] =
        .ok ['(', '"', 'a', '"', ',', ')', '\x00'] ∧
      parseComposite 1 ['(', '"', 'a', '"', ',', ')'] = .error none :=
  ⟨rfl, rfl⟩

theorem parseQuoted_backslash (c : Char) (rest : List Char) :
    parseQuoted ('\\' :: c :: rest) = (parseQuoted rest).map fun p => (c :: p.1, p.2) := by
  rw [parseQuoted]

theorem parseQuoted_plain {c : Char} (hb : c ≠ '\\') (hq : c ≠ '"') (rest : List Char) :
    parseQuoted (c :: rest) = (parseQuoted rest).map fun p => (c :: p.1, p.2) := by
  cases rest <;> simp [parseQuoted, hb, hq]

theorem escape_cons (c : Char) (s : List Char) :
    escape (c :: s) = (if c = '"' ∨ c = '\\' then ['\\', c] else [c]) ++ escape s := rfl

theorem length_escape_le (s : List Char) : (escape s).length ≤ 2 * s.length := by
  induction s with
  | nil => simp [escape]
  | cons c s ih => rw [escape_cons]; split <;> simp <;> omega

theorem parseQuoted_escape (s r : List Char) (c : Char) (hc : c ≠ '"') :
    parseQuoted (escape s ++ '"' :: c :: r) = some (s, c :: r) := by
  induction s with
  | nil => simp [escape, parseQuoted, hc]
  | cons x xs ih =>
    rw [escape_cons, List.append_assoc]
    by_cases hx : x = '"' ∨ x = '\\'
    · rw [if_pos hx, List.cons_append, List.cons_append, List.nil_append, parseQuoted_backslash, ih]
      rfl
    · rw [if_neg hx, List.cons_append, List.nil_append]
      push_neg at hx
      rw [parseQuoted_plain hx.2 hx.1, ih]
      rfl

theorem parseCompositeField_sep (f : Field) (r : List Char) :
    parseCompositeField false (writeCompositeField f ++ r) = some (f, r) := by
  cases f with
  | none => rfl
  | some s =>
    simp only [writeCompositeField, List.cons_append, List.append_assoc, List.nil_append]
    simp [parseCompositeField, parseQuoted_escape s r ',' (by decide)]

theorem parseCompositeField_last (f : Field) :
    parseCompositeField true ((writeCompositeField f).dropLast ++ [')']) = some (f, []) := by
  cases f with
  | none => rfl
  | some s =>
    have h : (writeCompositeField (some s)).dropLast = '"' :: (escape s ++ ['"']) := by
      rw [writeCompositeField, List.cons_append, List.dropLast_cons_of_ne_nil (by simp),
        List.dropLast_append_cons]
      rfl
    rw [h]
    simp [parseCompositeField, parseQuoted_escape s [] ')' (by decide)]

theorem parseFields_render (fields : List Field) (hne : fields ≠ []) :
    parseFields fields.length ((fields.flatMap writeCompositeField).dropLast ++ [')']) = some fields := by
  induction fields with
  | nil => exact absurd rfl hne
  | cons f fs ih =>
    cases fs with
    | nil => simp [parseFields, parseCompositeField_last]
    | cons g gs =>
      have hw : (g :: gs).flatMap writeCompositeField ≠ [] := by
        cases g <;> simp [writeCompositeField]
      have ih' := ih (List.cons_ne_nil g gs)
      rw [List.length_cons] at ih'
      rw [List.flatMap_cons, List.dropLast_append_of_ne_nil _ hw, List.append_assoc, List.length_cons,
        List.length_cons]
      simp only [parseFields, parseCompositeField_sep, ih', Option.pure_def, Option.bind_eq_bind,
        Option.some_bind]

/-- With two fields or more, what `composite_into_buf` writes, without its
terminating zero, parses back to the same fields. -/
theorem composite_round_trip (w : ℕ) (space : BitVec w) (fields : List Field) (hn : 2 ≤ fields.length)
    (bytes : List Char) (h : compositeIntoBuf w space fields = .ok bytes) :
    parseComposite fields.length bytes.dropLast = .ok fields := by
  have hne : fields ≠ [] := by rintro rfl; simp at hn
  have hw : fields.flatMap writeCompositeField ≠ [] := by
    obtain ⟨f, fs, rfl⟩ := List.exists_cons_of_ne_nil hne
    cases f <;> simp [writeCompositeField]
  unfold compositeIntoBuf at h
  split_ifs at h with hs h1
  · simp only [Except.ok.injEq] at h
    subst h
    rw [List.dropLast_append_cons, List.dropLast_cons₂, List.dropLast_single,
      List.dropLast_cons_of_ne_nil hw, List.cons_append]
    simp [parseComposite, parseFields_render fields hne]
  · omega

def twoFields : List Field := [some ['a'], none]

theorem composite_round_trip_two_fields :
    2 ≤ twoFields.length ∧ compositeIntoBuf 64 8 twoFields = .ok ['(', '"', 'a', '"', ',', ')', '\x00'] ∧
      parseComposite twoFields.length ['(', '"', 'a', '"', ',', ')', '\x00'].dropLast = .ok twoFields :=
  ⟨by decide, rfl, composite_round_trip 64 8 twoFields (by decide) _ rfl⟩

theorem sum_fieldTerms (w : ℕ) (fields : List Field) :
    (fields.map fun f => 2 * BitVec.ofNat w (sizeBuffer f) - 2).foldr (· + ·) 0 + 2 * (fields.length : BitVec w) =
      2 * ((fields.map sizeBuffer).sum : BitVec w) := by
  induction fields with
  | nil => simp
  | cons f fs ih =>
    simp only [List.map_cons, List.foldr_cons, List.length_cons, List.sum_cons, Nat.cast_add,
      Nat.cast_one, ← BitVec.natCast_eq_ofNat]
    linear_combination ih

theorem compositeSizeBuffer_eq (w : ℕ) (fields : List Field) (hne : fields ≠ []) :
    compositeSizeBuffer w fields = ((2 + fields.length + 2 * (fields.map sizeBuffer).sum : ℕ) : BitVec w) := by
  have h := sum_fieldTerms w fields
  obtain ⟨f, fs, rfl⟩ := List.exists_cons_of_ne_nil hne
  simp only [compositeSizeBuffer, ← BitVec.natCast_eq_ofNat, Nat.cast_add, Nat.cast_mul, Nat.cast_ofNat] at h ⊢
  linear_combination h

theorem compositeSizeBuffer_toNat (w : ℕ) (fields : List Field) (hne : fields ≠ [])
    (hw : 2 + fields.length + 2 * (fields.map sizeBuffer).sum < 2 ^ w) :
    (compositeSizeBuffer w fields).toNat = 2 + fields.length + 2 * (fields.map sizeBuffer).sum := by
  rw [compositeSizeBuffer_eq w fields hne, BitVec.natCast_eq_ofNat, BitVec.toNat_ofNat]
  exact Nat.mod_eq_of_lt hw

theorem compositeSizeBuffer_eq_of (w : ℕ) (fields : List Field) :
    compositeSizeBuffer w fields =
      compositeSizeBufferOf w (fields.map fun f => BitVec.ofNat w (sizeBuffer f)) := by
  cases fields <;> simp [compositeSizeBuffer, compositeSizeBufferOf, Function.comp_def]

theorem sum_sizeTerms (w : ℕ) (sizes : List (BitVec w)) :
    (sizes.map fun s => 2 * s - 2).foldr (· + ·) 0 + 2 * (sizes.length : BitVec w) =
      2 * ((sizes.map BitVec.toNat).sum : BitVec w) := by
  induction sizes with
  | nil => simp
  | cons s ss ih =>
    simp only [List.map_cons, List.foldr_cons, List.length_cons, List.sum_cons, Nat.cast_add,
      Nat.cast_one, BitVec.natCast_eq_ofNat, BitVec.ofNat_toNat, BitVec.setWidth_eq] at ih ⊢
    linear_combination ih

theorem compositeSizeBufferOf_eq (w : ℕ) (sizes : List (BitVec w)) (hne : sizes ≠ []) :
    compositeSizeBufferOf w sizes =
      ((2 + sizes.length + 2 * (sizes.map BitVec.toNat).sum : ℕ) : BitVec w) := by
  have h := sum_sizeTerms w sizes
  obtain ⟨s, ss, rfl⟩ := List.exists_cons_of_ne_nil hne
  simp only [compositeSizeBufferOf, ← BitVec.natCast_eq_ofNat, Nat.cast_add, Nat.cast_mul,
    Nat.cast_ofNat] at h ⊢
  linear_combination h

/-- For one field or more, `composite_size_buffer` in `w`-bit `size_t` is
the exact `2 + n + 2 * (s_1 + ... + s_n)` whenever that is below `2 ^ w`,
however the terms for zero estimates wrap; so a capacity check against it
compares with the true budget. -/
theorem composite_size_buffer_exact (w : ℕ) (sizes : List (BitVec w)) (hn : sizes ≠ [])
    (hw : 2 + sizes.length + 2 * (sizes.map BitVec.toNat).sum < 2 ^ w) :
    (compositeSizeBufferOf w sizes).toNat = 2 + sizes.length + 2 * (sizes.map BitVec.toNat).sum ∧
      ∀ space : BitVec w, space < compositeSizeBufferOf w sizes ↔
        space.toNat < 2 + sizes.length + 2 * (sizes.map BitVec.toNat).sum := by
  have htoNat :
      (compositeSizeBufferOf w sizes).toNat = 2 + sizes.length + 2 * (sizes.map BitVec.toNat).sum := by
    rw [compositeSizeBufferOf_eq w sizes hn, BitVec.natCast_eq_ofNat, BitVec.toNat_ofNat]
    exact Nat.mod_eq_of_lt hw
  exact ⟨htoNat, fun space => by rw [BitVec.lt_def, htoNat]⟩

def nullAndText : List (BitVec 64) := [0, 5]

theorem composite_size_buffer_null_and_text :
    nullAndText ≠ [] ∧ 2 + nullAndText.length + 2 * (nullAndText.map BitVec.toNat).sum < 2 ^ 64 ∧
      ((compositeSizeBufferOf 64 nullAndText).toNat =
          2 + nullAndText.length + 2 * (nullAndText.map BitVec.toNat).sum ∧
        ∀ space : BitVec 64, space < compositeSizeBufferOf 64 nullAndText ↔
          space.toNat < 2 + nullAndText.length + 2 * (nullAndText.map BitVec.toNat).sum) :=
  ⟨by decide, by decide, composite_size_buffer_exact 64 nullAndText (by decide) (by decide)⟩

theorem length_writeCompositeField_le (f : Field) :
    (writeCompositeField f).length ≤ 2 * sizeBuffer f + 1 := by
  cases f with
  | none => simp [writeCompositeField, sizeBuffer]
  | some s =>
    have := length_escape_le s
    simp [writeCompositeField, sizeBuffer]
    omega

theorem length_flatMap_writeCompositeField_le (fields : List Field) :
    (fields.flatMap writeCompositeField).length ≤ 2 * (fields.map sizeBuffer).sum + fields.length := by
  induction fields with
  | nil => simp
  | cons f fs ih =>
    have := length_writeCompositeField_le f
    simp only [List.flatMap_cons, List.length_append, List.map_cons, List.sum_cons, List.length_cons]
    omega

/-- With a number of fields other than one, and the estimate below `2 ^ w`:
a buffer smaller than `composite_size_buffer` is refused before anything is
written, and any other gets no more bytes than the estimate, the last of
them the terminating zero. -/
theorem composite_into_buf_within_estimate (w : ℕ) (space : BitVec w) (fields : List Field)
    (h1 : fields.length ≠ 1) (hw : 2 + fields.length + 2 * (fields.map sizeBuffer).sum < 2 ^ w) :
    (space < compositeSizeBuffer w fields → compositeIntoBuf w space fields =
      .error "Buffer space may not be enough to represent composite value.") ∧
    (¬space < compositeSizeBuffer w fields → ∃ bytes, compositeIntoBuf w space fields = .ok bytes ∧
      bytes.length ≤ (compositeSizeBuffer w fields).toNat ∧ bytes.getLast? = some '\x00') := by
  refine ⟨fun hs => by simp [compositeIntoBuf, hs], fun hs => ?_⟩
  rcases fields with _ | ⟨f, fs⟩
  · refine ⟨['(', ')', '\x00'], by simp [compositeIntoBuf, hs], ?_, rfl⟩
    simp only [compositeSizeBuffer, BitVec.toNat_ofNat, emptyCompositeSize, List.length_nil,
      List.map_nil, List.sum_nil] at hw ⊢
    have h3 : 3 < 2 ^ w := by
      rcases w with _ | _ | w
      · simp at hw
      · simp at hw
      · have := Nat.one_le_two_pow (n := w)
        rw [pow_succ, pow_succ]
        omega
    rw [Nat.mod_eq_of_lt h3]
    rfl
  · have hlen : 1 < (f :: fs).length := by rw [List.length_cons] at h1 ⊢; omega
    have hw' : (f :: fs).flatMap writeCompositeField ≠ [] := by cases f <;> simp [writeCompositeField]
    refine ⟨('(' :: (f :: fs).flatMap writeCompositeField).dropLast ++ [')', '\x00'], ?_, ?_, by simp⟩
    · simp only [compositeIntoBuf, if_neg hs, if_neg (List.cons_ne_nil f fs), if_pos hlen]
    · rw [compositeSizeBuffer_toNat w _ (List.cons_ne_nil f fs) hw]
      have := length_flatMap_writeCompositeField_le (f :: fs)
      have hpos : 0 < ((f :: fs).flatMap writeCompositeField).length := List.length_pos.2 hw'
      simp only [List.length_append, List.length_dropLast, List.length_cons, List.length_nil] at this ⊢
      omega

theorem composite_two_fields_within_estimate :
    twoFields.length ≠ 1 ∧ 2 + twoFields.length + 2 * (twoFields.map sizeBuffer).sum < 2 ^ 64 ∧
      ((8 : BitVec 64) < compositeSizeBuffer 64 twoFields → compositeIntoBuf 64 8 twoFields =
        .error "Buffer space may not be enough to represent composite value.") ∧
      (¬(8 : BitVec 64) < compositeSizeBuffer 64 twoFields →
        ∃ bytes, compositeIntoBuf 64 8 twoFields = .ok bytes ∧
          bytes.length ≤ (compositeSizeBuffer 64 twoFields).toNat ∧ bytes.getLast? = some '\x00') :=
  ⟨by decide, by decide, composite_into_buf_within_estimate 64 8 twoFields (by decide) (by decide)⟩

end Pqxx.Composite
