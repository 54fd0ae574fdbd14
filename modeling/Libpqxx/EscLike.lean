import Mathlib.Data.List.Basic

/-!
# Escaping text for a LIKE pattern

`esc_like(text, escape_char)` walks the text glyph by glyph with the scanner
of the connection's encoding group and puts the escape character before
every glyph that is a lone `_` or `%`. A text is bytes, and a scanner tells
how long the glyph at the front of a text is. The scanners live in
`encodings.cxx`, which is not in this tree: a scanner is a parameter here,
carrying the two properties every encoding group's scanner has. A pattern
is read glyph by glyph, as `LIKE ... ESCAPE e` reads it.
-/

set_option autoImplicit false

namespace Pqxx.EscLike

structure Scanner where
  scan : List Char → ℕ
  ascii : ∀ c rest, c.toNat < 128 → scan (c :: rest) = 1
  own : ∀ g rest rest', g ≠ [] → scan (g ++ rest) = g.length → scan (g ++ rest') = g.length

/-- Modelled from the spec: `for_glyphs` (absent here) cuts a text into
glyphs with the scanner, and fails where the scanner reports no glyph. -/
def glyphs (sc : Scanner) : ℕ → List Char → Option (List (List Char))
  | _, [] => some []
  | 0, _ :: _ => none
  | fuel + 1, c :: cs =>
    if sc.scan (c :: cs) = 0 ∨ (c :: cs).length < sc.scan (c :: cs) then none
    else ((glyphs sc fuel ((c :: cs).drop (sc.scan (c :: cs)))).map
      ((c :: cs).take (sc.scan (c :: cs)) :: ·))

def splitGlyphs (sc : Scanner) (text : List Char) : Option (List (List Char)) :=
  glyphs sc text.length text

def escGlyph (e : Char) (g : List Char) : List Char :=
  (if g = ['_'] ∨ g = ['%'] then [e] else []) ++ g

def escLike (sc : Scanner) (text : List Char) (e : Char) : Option (List Char) :=
  (splitGlyphs sc text).map (·.flatMap (escGlyph e))

inductive Token
  | lit (g : List Char)
  | one
  | many
  deriving DecidableEq, Repr

def tokens (e : Char) : List (List Char) → Option (List Token)
  | [] => some []
  | g :: gs =>
    if g = [e] then
      match gs with
      | [] => none
      | c :: rest => (tokens e rest).map (.lit c :: ·)
    else (tokens e gs).map ((if g = ['_'] then .one else if g = ['%'] then .many else .lit g) :: ·)

def Token.matches : List Token → List (List Char) → Bool
  | [], s => s.isEmpty
  | .lit g :: ps, s => match s with
    | c :: s' => c = g && Token.matches ps s'
    | [] => false
  | .one :: ps, s => match s with
    | _ :: s' => Token.matches ps s'
    | [] => false
  | .many :: ps, s => s.tails.any (Token.matches ps)

def likeMatches (sc : Scanner) (e : Char) (p s : List Char) : Bool :=
  match splitGlyphs sc p, splitGlyphs sc s with
  | some pg, some sg => match tokens e pg with
    | some ts => Token.matches ts sg
    | none => false
  | _, _ => false

/-- Modelled from the spec: the scanner of the one-byte encoding group. -/
def monobyte : Scanner where
  scan _ := 1
  ascii _ _ _ := rfl
  own _ _ _ _ h := h

/-- Escaping `a\b` with backslash leaves it as it is; read as a pattern it
matches `ab` and not `a\b`. -/
theorem esc_like_keeps_escape_char :
    escLike monobyte ['a', '\\', 'b'] '\\' = some ['a', '\\', 'b'] ∧
      likeMatches monobyte '\\' ['a', '\\', 'b'] ['a', 'b'] = true ∧
      likeMatches monobyte '\\' ['a', '\\', 'b'] ['a', '\\', 'b'] = false := by
  decide

section Reading

variable (sc : Scanner)

def Scanned (gs : List (List Char)) : Prop := ∀ g ∈ gs, g ≠ [] ∧ ∀ rest, sc.scan (g ++ rest) = g.length

theorem glyphs_spec {fuel : ℕ} {text : List Char} {gs : List (List Char)}
    (h : glyphs sc fuel text = some gs) : gs.flatten = text ∧ Scanned sc gs := by
  induction fuel, text using glyphs.induct sc generalizing gs with
  | case1 => -- no text left
    rw [glyphs] at h; cases h; exact ⟨rfl, by simp [Scanned]⟩
  | case2 => -- out of fuel
    rw [glyphs] at h; cases h
  | case3 fuel c cs hn => -- the scanner rejects the glyph
    rw [glyphs, if_pos hn] at h; cases h
  | case4 fuel c cs hn ih => -- one glyph, then the rest
    simp only [glyphs, if_neg hn] at h
    obtain ⟨gs', hgs', rfl⟩ := Option.map_eq_some'.1 h
    obtain ⟨hflat, hscan⟩ := ih hgs'
    push_neg at hn
    have hlen : ((c :: cs).take (sc.scan (c :: cs))).length = sc.scan (c :: cs) :=
      List.length_take_of_le hn.2
    refine ⟨by rw [List.flatten_cons, hflat, List.take_append_drop], ?_⟩
    intro g hg
    rcases List.mem_cons.1 hg with rfl | hg
    · refine ⟨List.ne_nil_of_length_pos (by omega), fun rest => ?_⟩
      refine sc.own _ ((c :: cs).drop (sc.scan (c :: cs))) rest
        (List.ne_nil_of_length_pos (by omega)) ?_
      rw [List.take_append_drop, hlen]
    · exact hscan g hg

theorem glyphs_flatten {gs : List (List Char)} (hs : Scanned sc gs) (fuel : ℕ)
    (hf : gs.flatten.length ≤ fuel) : glyphs sc fuel gs.flatten = some gs := by
  induction gs generalizing fuel with
  | nil => cases fuel <;> rfl
  | cons g gs ih =>
    obtain ⟨hg, hlen⟩ := hs g (List.mem_cons_self _ _)
    obtain ⟨c, cs, rfl⟩ := List.exists_cons_of_ne_nil hg
    have hrest := ih (fun x hx => hs x (List.mem_cons_of_mem _ hx))
    rw [List.flatten_cons, List.length_append, List.length_cons] at hf
    obtain ⟨fuel, rfl⟩ : ∃ f, fuel = f + 1 := ⟨fuel - 1, by omega⟩
    rw [List.flatten_cons, List.cons_append, glyphs, ← List.cons_append, hlen, if_neg (by simp),
      List.take_left, List.drop_left, hrest fuel (by omega)]
    rfl

theorem splitGlyphs_flatten {gs : List (List Char)} (hs : Scanned sc gs) :
    splitGlyphs sc gs.flatten = some gs :=
  glyphs_flatten sc hs _ le_rfl

end Reading

def escGlyphs (e : Char) (gs : List (List Char)) : List (List Char) :=
  gs.flatMap fun g => if g = ['_'] ∨ g = ['%'] then [[e], g] else [g]

theorem flatten_escGlyphs (e : Char) (gs : List (List Char)) :
    (escGlyphs e gs).flatten = gs.flatMap (escGlyph e) := by
  induction gs with
  | nil => rfl
  | cons g gs ih =>
    simp only [escGlyphs, List.flatMap_cons, List.flatten_append] at ih ⊢
    rw [ih]
    split_ifs <;> simp [escGlyph, *]

theorem scanned_escGlyphs (sc : Scanner) {e : Char} (he : e.toNat < 128) {gs : List (List Char)}
    (hs : Scanned sc gs) : Scanned sc (escGlyphs e gs) := by
  intro g hg
  obtain ⟨x, hx, hg⟩ := List.mem_flatMap.1 hg
  split_ifs at hg
  · rcases List.mem_pair.1 hg with rfl | rfl
    · exact ⟨by simp, fun rest => sc.ascii e rest he⟩
    · exact hs g hx
  · rw [List.mem_singleton.1 hg]
    exact hs x hx

theorem tokens_escape (e : Char) (c : List Char) (rest : List (List Char)) :
    tokens e ([e] :: c :: rest) = (tokens e rest).map (.lit c :: ·) := by
  simp [tokens]

theorem tokens_plain {e : Char} {g : List Char} (he : g ≠ [e]) (hu : g ≠ ['_']) (hp : g ≠ ['%'])
    (gs : List (List Char)) : tokens e (g :: gs) = (tokens e gs).map (.lit g :: ·) := by
  cases gs <;> simp [tokens, he, hu, hp]

theorem tokens_escGlyphs (e : Char) {gs : List (List Char)}
    (hgs : ∀ g ∈ gs, g = [e] → g = ['_'] ∨ g = ['%']) :
    tokens e (escGlyphs e gs) = some (gs.map .lit) := by
  induction gs with
  | nil => rfl
  | cons g gs ih =>
    have ih' := ih fun x hx => hgs x (List.mem_cons_of_mem _ hx)
    simp only [escGlyphs, List.flatMap_cons] at ih' ⊢
    by_cases hw : g = ['_'] ∨ g = ['%']
    · rw [if_pos hw, List.cons_append, List.cons_append, List.nil_append, tokens_escape, ih']
      rfl
    · have he : g ≠ [e] := fun h => hw (hgs g (List.mem_cons_self _ _) h)
      push_neg at hw
      rw [if_neg (by tauto), List.singleton_append, tokens_plain he hw.1 hw.2, ih']
      rfl

theorem matches_lits (gs s : List (List Char)) : Token.matches (gs.map .lit) s = true ↔ s = gs := by
  induction gs generalizing s with
  | nil => cases s <;> simp [Token.matches]
  | cons g gs ih => cases s <;> simp [Token.matches, ih, and_comm]

/-- When the escape character is `_` or `%`, or is no glyph of the text,
`esc_like`'s output is a well-formed pattern whose every glyph stands for
itself, those of the text once the escapes are removed, and it matches the
text and nothing else. -/
theorem esc_like_matches_only_text (sc : Scanner) (e : Char) (he : e.toNat < 128)
    (text : List Char) (gs : List (List Char)) (ht : splitGlyphs sc text = some gs)
    (hesc : e = '_' ∨ e = '%' ∨ [e] ∉ gs) :
    ∃ p pg, escLike sc text e = some p ∧ splitGlyphs sc p = some pg ∧
      tokens e pg = some (gs.map .lit) ∧ ∀ s, likeMatches sc e p s = true ↔ s = text := by
  obtain ⟨hflat, hs⟩ := glyphs_spec sc ht
  have hwild : ∀ g ∈ gs, g = [e] → g = ['_'] ∨ g = ['%'] := by
    rintro g hg rfl
    rcases hesc with rfl | rfl | hn
    · exact .inl rfl
    · exact .inr rfl
    · exact absurd hg hn
  have hp : splitGlyphs sc (gs.flatMap (escGlyph e)) = some (escGlyphs e gs) := by
    rw [← flatten_escGlyphs]; exact splitGlyphs_flatten sc (scanned_escGlyphs sc he hs)
  refine ⟨_, _, by simp [escLike, ht], hp, tokens_escGlyphs e hwild, fun s => ?_⟩
  cases hsg : splitGlyphs sc s with
  | none => exact iff_of_false (by simp [likeMatches, hsg]) fun h => by simp [h, ht] at hsg
  | some sg =>
    simp only [likeMatches, hp, hsg, tokens_escGlyphs e hwild, matches_lits]
    obtain ⟨hsflat, -⟩ := glyphs_spec sc hsg
    constructor
    · rintro rfl; rw [← hsflat, hflat]
    · rintro rfl; simpa [ht] using hsg.symm

theorem esc_like_underscore_monobyte :
    '\\'.toNat < 128 ∧ splitGlyphs monobyte ['a', '_'] = some [['a'], ['_']] ∧
      ('\\' = '_' ∨ '\\' = '%' ∨ ['\\'] ∉ [['a'], ['_']]) ∧
      ∃ p pg, escLike monobyte ['a', '_'] '\\' = some p ∧ splitGlyphs monobyte p = some pg ∧
        tokens '\\' pg = some ([['a'], ['_']].map .lit) ∧
        ∀ s, likeMatches monobyte '\\' p s = true ↔ s = ['a', '_'] :=
  ⟨by decide, rfl, .inr (.inr (by decide)),
    esc_like_matches_only_text monobyte '\\' (by decide) ['a', '_'] _ rfl (.inr (.inr (by decide)))⟩

end Pqxx.EscLike
