import Mathlib.Data.String.Basic

/-!
# The map of notification handlers

`m_notification_handlers` is a `std::map` from channel name to handler. It
is the list of its entries in strictly increasing key order, so a channel
has at most one entry and `lower_bound` names the first entry whose key is
not below the one sought. A handler is known by its identity. Insertion
with a hint behaves as insertion without one; only `erase` takes a position,
and a position is named by the key stored there.
-/

set_option autoImplicit false

namespace Pqxx.Entries

def Ordered (es : List (String × ℕ)) : Prop := es.Pairwise (fun a b => a.1 < b.1)

def put (k : String) (v : ℕ) : List (String × ℕ) → List (String × ℕ)
  | [] => [(k, v)]
  | e :: es => if k < e.1 then (k, v) :: e :: es
      else if k = e.1 then (k, v) :: es else e :: put k v es

def get? (k : String) : List (String × ℕ) → Option ℕ
  | [] => none
  | e :: es => if e.1 = k then some e.2 else get? k es

def lowerBound (k : String) : List (String × ℕ) → Option String
  | [] => none
  | e :: es => if k ≤ e.1 then some e.1 else lowerBound k es

def remove (k : String) (es : List (String × ℕ)) : List (String × ℕ) :=
  es.filter (fun e => e.1 ≠ k)

theorem mem_put {k : String} {v : ℕ} {es : List (String × ℕ)} {e : String × ℕ}
    (h : e ∈ put k v es) : e = (k, v) ∨ e ∈ es := by
  induction es with
  | nil => simpa [put] using h
  | cons x es ih =>
    simp only [put] at h
    split_ifs at h
    · exact List.mem_cons.1 h
    · rcases List.mem_cons.1 h with h | h
      · exact .inl h
      · exact .inr (List.mem_cons_of_mem _ h)
    · rcases List.mem_cons.1 h with rfl | h
      · simp
      · rcases ih h with h | h <;> simp [h]

theorem ordered_put (k : String) (v : ℕ) {es : List (String × ℕ)} (h : Ordered es) :
    Ordered (put k v es) := by
  induction es with
  | nil => simp [Ordered, put]
  | cons e es ih =>
    rw [Ordered, List.pairwise_cons] at h
    simp only [put]
    split_ifs with hlt heq
    · refine List.pairwise_cons.2 ⟨?_, List.pairwise_cons.2 h⟩
      intro x hx
      rcases List.mem_cons.1 hx with rfl | hx
      · exact hlt
      · exact hlt.trans (h.1 x hx)
    · exact List.pairwise_cons.2 ⟨fun x hx => heq ▸ h.1 x hx, h.2⟩
    · have hgt : e.1 < k := lt_of_le_of_ne (not_lt.1 hlt) (Ne.symm heq)
      refine List.pairwise_cons.2 ⟨fun x hx => ?_, ih h.2⟩
      rcases mem_put hx with rfl | hx
      · exact hgt
      · exact h.1 x hx

theorem ordered_remove (k : String) {es : List (String × ℕ)} (h : Ordered es) :
    Ordered (remove k es) :=
  h.filter _

@[simp] theorem get?_put (k k' : String) (v : ℕ) (es : List (String × ℕ)) :
    get? k' (put k v es) = if k = k' then some v else get? k' es := by
  induction es with
  | nil => simp [put, get?]
  | cons e es ih =>
    rw [put]
    by_cases hlt : k < e.1
    · rw [if_pos hlt]; simp [get?]
    rw [if_neg hlt]
    by_cases heq : k = e.1
    · rw [if_pos heq]
      by_cases hk : k = k' <;> simp [get?, hk, ← heq]
    · rw [if_neg heq, get?, ih]
      by_cases hk : k = k' <;> simp [get?, hk]
      exact fun he => absurd (hk.trans he.symm) heq

@[simp] theorem get?_remove (k k' : String) (es : List (String × ℕ)) :
    get? k' (remove k es) = if k = k' then none else get? k' es := by
  induction es with
  | nil => simp [remove, get?]
  | cons e es ih =>
    by_cases he : e.1 = k
    · rw [remove, List.filter_cons_of_neg (by simpa using he), ← remove, ih]
      subst he
      by_cases hk : e.1 = k' <;> simp [get?, hk]
    · rw [remove, List.filter_cons_of_pos (by simpa using he), ← remove, get?, ih]
      by_cases hk : k = k'
      · subst hk; simp [get?, he]
      · simp [get?, hk]

theorem lowerBound_some {k k' : String} {es : List (String × ℕ)}
    (h : lowerBound k es = some k') : k ≤ k' ∧ (get? k' es).isSome := by
  induction es with
  | nil => simp [lowerBound] at h
  | cons e es ih =>
    simp only [lowerBound] at h
    split_ifs at h with hle
    · cases h
      simp [get?, hle]
    · obtain ⟨h1, h2⟩ := ih h
      refine ⟨h1, ?_⟩
      by_cases he : e.1 = k' <;> simp [get?, he, h2]

theorem mem_of_get? {k : String} {v : ℕ} {es : List (String × ℕ)}
    (h : get? k es = some v) : (k, v) ∈ es := by
  induction es with
  | nil => simp [get?] at h
  | cons e es ih =>
    simp only [get?] at h
    split_ifs at h with he
    · cases h; simp [← he]
    · exact List.mem_cons_of_mem _ (ih h)

theorem lowerBound_of_get? {k : String} {es : List (String × ℕ)} (ho : Ordered es)
    (h : (get? k es).isSome) : lowerBound k es = some k := by
  induction es with
  | nil => simp [get?] at h
  | cons e es ih =>
    rw [Ordered, List.pairwise_cons] at ho
    by_cases he : e.1 = k
    · simp [lowerBound, he]
    · simp only [get?, he, if_false] at h
      obtain ⟨v, hv⟩ := Option.isSome_iff_exists.1 h
      have hlt : e.1 < k := ho.1 (k, v) (mem_of_get? hv)
      simp [lowerBound, not_le.2 hlt, ih ho.2 h]

theorem lowerBound_eq_self {k : String} {es : List (String × ℕ)} (ho : Ordered es) :
    lowerBound k es = some k ↔ (get? k es).isSome :=
  ⟨fun h => (lowerBound_some h).2, lowerBound_of_get? ho⟩

end Pqxx.Entries

namespace Pqxx

open Entries

structure HandlerMap where
  entries : List (String × ℕ)
  ordered : Ordered entries

namespace HandlerMap

def empty : HandlerMap := ⟨[], List.Pairwise.nil⟩

def find (m : HandlerMap) (k : String) : Option ℕ := get? k m.entries

def insertOrAssign (m : HandlerMap) (k : String) (v : ℕ) : HandlerMap :=
  ⟨put k v m.entries, ordered_put k v m.ordered⟩

def emplaceHint (m : HandlerMap) (k : String) (v : ℕ) : HandlerMap :=
  if (m.find k).isSome then m else m.insertOrAssign k v

def erase (m : HandlerMap) (k : String) : HandlerMap :=
  ⟨remove k m.entries, ordered_remove k m.ordered⟩

def lowerBound (m : HandlerMap) (k : String) : Option String :=
  Entries.lowerBound k m.entries

@[simp] theorem find_empty (k : String) : empty.find k = none := rfl

@[simp] theorem find_insertOrAssign (m : HandlerMap) (k k' : String) (v : ℕ) :
    (m.insertOrAssign k v).find k' = if k = k' then some v else m.find k' :=
  get?_put k k' v m.entries

@[simp] theorem find_erase (m : HandlerMap) (k k' : String) :
    (m.erase k).find k' = if k = k' then none else m.find k' :=
  get?_remove k k' m.entries

theorem lowerBound_eq_self_iff (m : HandlerMap) (k : String) :
    m.lowerBound k = some k ↔ (m.find k).isSome :=
  Entries.lowerBound_eq_self m.ordered

theorem lowerBound_spec {m : HandlerMap} {k k' : String} (h : m.lowerBound k = some k') :
    k ≤ k' ∧ (m.find k').isSome :=
  Entries.lowerBound_some h

end HandlerMap

end Pqxx
