import Mathlib.Data.List.Basic

/-!
# Python strings and the values `parse_bencode` builds

The probe scripts under `scripts/` work on Python `str` values: they index them, `find` a
character from a position, slice them, `split` them once, and call `str.isdigit`. A `str` is a
sequence of code points, here a `List Char`, with positions as natural numbers.

Past ASCII, `str.isdigit` (and `int` and `repr`, in `NgBencode.Int`) read Python's Unicode
database, which changes from one Python release to the next. It enters the model as a
parameter, `UnicodeDb`, that carries the one fact about it the proofs need: no digit is
whitespace. Every result of the development holds for every such database; `UnicodeDb.latin1`
is one, used to evaluate the model on concrete inputs.

A Python call ends in a value or an exception. `Outcome` records which, and a third case,
`outOfFuel`, for the fuel-bounded models of Python's loops and recursion; the adequacy theorems
show the fuel given never runs out.
-/

namespace NgBencode

/-! ### The Unicode database -/

/-- The part of Python's Unicode database that `str.isdigit`, `int` and `repr` consult past
ASCII: the digits (`Numeric_Type` `Digit` or `Decimal`), the value of a decimal digit, the
whitespace, and the printable characters. The interpreter fixes the ASCII behaviour, so the
fields are read for characters from U+0080 on only. -/
structure UnicodeDb where
  isdigit : Char → Bool
  decimal : Char → Option (Fin 10)
  isspace : Char → Bool
  isprintable : Char → Bool
  /-- Digits are of category `Nd` or `No`, whitespace of `Zs`, `Zl`, `Zp` or `Cc`. -/
  isspace_eq_false_of_isdigit : ∀ c, isdigit c = true → isspace c = false

/-- Python's tables on the Latin-1 supplement, U+0080 to U+00FF: the superscripts `¹²³` are
digits but not decimal, U+0085 and U+00A0 are whitespace, and U+00A1 to U+00FF but the soft
hyphen U+00AD are printable. Code points past U+00FF are taken as unassigned. -/
def UnicodeDb.latin1 : UnicodeDb where
  isdigit c := c.toNat = 0xB2 || c.toNat = 0xB3 || c.toNat = 0xB9
  decimal _ := none
  isspace c := c.toNat = 0x85 || c.toNat = 0xA0
  isprintable c := 0xA1 ≤ c.toNat && c.toNat ≤ 0xFF && c.toNat != 0xAD
  isspace_eq_false_of_isdigit c h := by
    simp only [Bool.or_eq_true, decide_eq_true_eq] at h
    simp only [Bool.or_eq_false_iff, decide_eq_false_iff_not]
    omega

/-- `c.isdigit()` for a one-character string. -/
def isdigit (u : UnicodeDb) (c : Char) : Bool :=
  if c.toNat < 128 then c.isDigit else u.isdigit c

theorem isdigit_of_ascii {u : UnicodeDb} {c : Char} (h : c.toNat < 128) :
    isdigit u c = c.isDigit := if_pos h

/-! ### Outcomes -/

/-- How a Python call ends: with a value, with a raised `ValueError` and its message, or, in a
fuel-bounded model of a loop, with the fuel spent. -/
inductive Outcome (α : Type) where
  | ok (a : α)
  | raise (msg : String)
  | outOfFuel
  deriving DecidableEq, Repr

namespace Outcome

/-- Sequencing: an exception, or the fuel running out, skips the rest of the call. -/
def bind {α β : Type} : Outcome α → (α → Outcome β) → Outcome β
  | ok a, f => f a
  | raise msg, _ => raise msg
  | outOfFuel, _ => outOfFuel

instance : Monad Outcome where
  pure := ok
  bind := bind

variable {α β : Type}

@[simp] theorem ok_bind (a : α) (f : α → Outcome β) : (ok a >>= f) = f a := rfl

@[simp] theorem raise_bind (msg : String) (f : α → Outcome β) :
    (raise msg >>= f) = raise msg := rfl

@[simp] theorem outOfFuel_bind (f : α → Outcome β) : (outOfFuel >>= f) = outOfFuel := rfl

@[simp] theorem pure_eq_ok (a : α) : (pure a : Outcome α) = ok a := rfl

theorem bind_eq_ok {x : Outcome α} {f : α → Outcome β} {b : β} :
    x >>= f = ok b ↔ ∃ a, x = ok a ∧ f a = ok b := by
  cases x <;> simp

/-- An exception from a sequence is raised by its first call, or by the rest after it. -/
theorem bind_eq_raise {x : Outcome α} {f : α → Outcome β} {msg : String}
    (h : x >>= f = raise msg) : x = raise msg ∨ ∃ a, x = ok a ∧ f a = raise msg := by
  cases x with
  | ok a => exact .inr ⟨a, rfl, h⟩
  | raise m => cases h; exact .inl rfl
  | outOfFuel => cases h

/-- Neither call of a sequence running out of fuel, the sequence does not. -/
theorem bind_ne_outOfFuel {x : Outcome α} {f : α → Outcome β} (hx : x ≠ outOfFuel)
    (hf : ∀ a, x = ok a → f a ≠ outOfFuel) : x >>= f ≠ outOfFuel := by
  cases x with
  | ok a => exact hf a rfl
  | raise msg => simp
  | outOfFuel => exact absurd rfl hx

/-- `x` is `y`, unless the fuel ran out first. -/
def Approx (x y : Outcome α) : Prop :=
  x = outOfFuel ∨ x = y

theorem Approx.bind {x : Outcome α} {a : α} {f : α → Outcome β} {y : Outcome β}
    (hx : Approx x (ok a)) (hf : Approx (f a) y) : Approx (x >>= f) y := by
  rcases hx with rfl | rfl
  · exact .inl rfl
  · simpa using hf

theorem Approx.eq {x y : Outcome α} (h : Approx x y) (hx : x ≠ outOfFuel) : x = y :=
  h.resolve_left hx

end Outcome

/-! ### Values -/

/-- The Python values `parse_bencode` returns: `str`, `int`, `list`, and `dict` with string
keys, its entries in insertion order. -/
inductive PyVal where
  | str (s : List Char)
  | int (n : Int)
  | list (items : List PyVal)
  | dict (entries : List (List Char × PyVal))
  deriving Repr

/-- A dict with string keys, its entries in insertion order. -/
abbrev Dict := List (List Char × PyVal)

namespace Dict

/-- `d[key] = value`: an existing key keeps its place and takes the new value, a new key goes
last. -/
def setItem : Dict → List Char → PyVal → Dict
  | [], k, v => [(k, v)]
  | (k', v') :: d, k, v => if k' = k then (k', v) :: d else (k', v') :: setItem d k v

/-- `d.update(entries)`, also `{**d, **dict(entries)}`: the entries set in turn. -/
def update (d : Dict) (entries : List (List Char × PyVal)) : Dict :=
  entries.foldl (fun d e => setItem d e.1 e.2) d

/-- `d.get(key)`. -/
def get? (d : Dict) (k : List Char) : Option PyVal :=
  (d.find? (·.1 = k)).map (·.2)

@[simp] theorem update_nil (d : Dict) : update d [] = d := rfl

@[simp] theorem update_cons (d : Dict) (e : List Char × PyVal) (es : List (List Char × PyVal)) :
    update d (e :: es) = update (setItem d e.1 e.2) es := rfl

theorem update_append (d : Dict) (es es' : List (List Char × PyVal)) :
    update d (es ++ es') = update (update d es) es' :=
  List.foldl_append _ _ _ _

theorem get?_setItem (d : Dict) (k k' : List Char) (v : PyVal) :
    get? (setItem d k v) k' = if k = k' then some v else get? d k' := by
  induction d with
  | nil => by_cases h : k = k' <;> simp [setItem, get?, h]
  | cons e d ih =>
    obtain ⟨k'', v''⟩ := e
    simp only [get?] at ih ⊢
    by_cases h₁ : k'' = k
    · subst h₁
      by_cases h₂ : k'' = k' <;> simp [setItem, h₂]
    · by_cases h₂ : k'' = k'
      · subst h₂
        simp [setItem, h₁, Ne.symm h₁]
      · simp [setItem, h₁, h₂, ih]

/-- **A later key overrides an earlier one**: after `update`, a key reads the value of its
last entry, or what the dict held before when no entry names it. -/
theorem get?_update (d : Dict) (es : List (List Char × PyVal)) (k : List Char) :
    get? (update d es) k = ((es.reverse.find? (·.1 = k)).map (·.2)).or (get? d k) := by
  induction es generalizing d with
  | nil => simp
  | cons e es ih =>
    rw [update_cons, ih, get?_setItem, List.reverse_cons, List.find?_append]
    by_cases h : e.1 = k
    · cases hf : (es.reverse.find? (·.1 = k)) <;> simp [h, hf]
    · cases hf : (es.reverse.find? (·.1 = k)) <;> simp [h, hf]

theorem mem_keys_setItem {d : Dict} {k k' : List Char} {v : PyVal}
    (h : k' ∈ (setItem d k v).map Prod.fst) : k' = k ∨ k' ∈ d.map Prod.fst := by
  induction d with
  | nil => simpa [setItem] using h
  | cons e d ih =>
    obtain ⟨k₀, v₀⟩ := e
    rw [setItem] at h
    split_ifs at h <;> simp only [List.map_cons, List.mem_cons] at h ⊢
    · exact .inr h
    · rcases h with h | h
      · exact .inr (.inl h)
      · exact (ih h).imp_right .inr

/-- A key of `d.update(entries)` is a key of `d` or of the entries. -/
theorem mem_keys_update {d : Dict} {es : List (List Char × PyVal)} {k : List Char}
    (h : k ∈ (update d es).map Prod.fst) : k ∈ d.map Prod.fst ∨ k ∈ es.map Prod.fst := by
  induction es generalizing d with
  | nil => exact .inl h
  | cons e es ih =>
    rw [update_cons] at h
    rcases ih h with h | h
    · rcases mem_keys_setItem h with rfl | h
      · exact .inr (List.mem_map_of_mem _ (List.mem_cons_self _ _))
      · exact .inl h
    · exact .inr (List.mem_cons_of_mem _ h)

end Dict

/-! ### `str` operations -/

/-- `data.find(c, start)`, with `none` where Python returns `-1`. -/
def find (data : List Char) (c : Char) (start : Nat) : Option Nat :=
  ((data.drop start).indexOf? c).map (start + ·)

/-- `data[start:stop]`, for positions that are not negative. -/
def slice (data : List Char) (start stop : Nat) : List Char :=
  (data.drop start).take (stop - start)

/-- `s.split(sep, 1)`: the text before the first `sep` and the text after it, or `[s]` when
`sep` does not occur. -/
def splitOnce (sep : Char) (s : List Char) : List (List Char) :=
  match s.span (· ≠ sep) with
  | (before, []) => [before]
  | (before, _ :: after) => [before, after]

/-! ### What remains from a position

The parser and the validator read a `str` through a position; what they read is what remains
of the text from there, `data.drop pos`. These lemmas restate each `str` operation on it. -/

section Remaining

variable {data pre rest : List Char} {pos : Nat} {c : Char}

theorem getElem?_of_drop_eq_cons (h : data.drop pos = c :: rest) : data[pos]? = some c := by
  rw [← Nat.add_zero pos, ← List.getElem?_drop, h]
  simp

theorem getElem_of_drop_eq_cons (h : data.drop pos = c :: rest) (hp : pos < data.length) :
    data[pos] = c := by
  have := getElem?_of_drop_eq_cons h
  rw [List.getElem?_eq_getElem hp] at this
  exact Option.some.inj this

theorem drop_succ_of_drop_eq_cons (h : data.drop pos = c :: rest) :
    data.drop (pos + 1) = rest := by
  rw [← List.drop_drop, h]
  rfl

theorem drop_eq_cons_of_getElem? (h : data[pos]? = some c) :
    data.drop pos = c :: data.drop (pos + 1) := by
  obtain ⟨hlt, rfl⟩ := List.getElem?_eq_some_iff.mp h
  exact List.drop_eq_getElem_cons hlt

theorem drop_eq_nil_of_getElem? (h : data[pos]? = none) : data.drop pos = [] :=
  List.drop_eq_nil_of_le (List.getElem?_eq_none_iff.mp h)

theorem getElem?_of_drop_eq_nil (h : data.drop pos = []) : data[pos]? = none := by
  rw [← Nat.add_zero pos, ← List.getElem?_drop, h]
  simp

/-- The first `c` of a text that has no `c` before it. -/
theorem indexOf?_append_cons (hc : c ∉ pre) :
    (pre ++ c :: rest).indexOf? c = some pre.length := by
  induction pre with
  | nil => simp [List.indexOf?_cons]
  | cons d pre ih =>
    rw [List.mem_cons, not_or] at hc
    simp [List.indexOf?_cons, Ne.symm hc.1, ih hc.2]

/-- Where `indexOf?` stops: no `c` before it, and a `c` there. -/
theorem eq_of_indexOf? {l : List Char} {i : Nat} (h : l.indexOf? c = some i) :
    l = l.take i ++ c :: l.drop (i + 1) ∧ c ∉ l.take i := by
  induction l generalizing i with
  | nil => simp at h
  | cons d l ih =>
    rw [List.indexOf?_cons] at h
    by_cases hd : d = c
    · subst hd
      simp only [beq_self_eq_true, if_true, Option.some.injEq] at h
      subst h
      simp
    · simp only [beq_iff_eq, hd, if_false, Option.map_eq_some'] at h
      obtain ⟨j, hj, rfl⟩ := h
      obtain ⟨h₁, h₂⟩ := ih hj
      refine ⟨by simpa using h₁, ?_⟩
      simpa [Ne.symm hd] using h₂

/-- `find` stops at the first `c` from `pos`. -/
theorem find_of_drop_eq (h : data.drop pos = pre ++ c :: rest) (hc : c ∉ pre) :
    find data c pos = some (pos + pre.length) := by
  simp [find, h, indexOf?_append_cons hc]

/-- What `find` returns splits the text: the slice up to it has no `c`, and a `c` stands there. -/
theorem drop_eq_of_find {j : Nat} (h : find data c pos = some j) :
    pos ≤ j ∧ data.drop pos = slice data pos j ++ c :: data.drop (j + 1) ∧
      c ∉ slice data pos j := by
  obtain ⟨i, hi, rfl⟩ := Option.map_eq_some'.mp h
  obtain ⟨h₁, h₂⟩ := eq_of_indexOf? hi
  refine ⟨Nat.le_add_right _ _, ?_, by simpa [slice] using h₂⟩
  simpa [slice, Nat.add_assoc] using h₁

/-- A slice from a character other than `sep` up to the first `sep` after it starts with that
character. -/
theorem slice_eq_cons_of_find {j : Nat} {sep : Char} (hc : data.drop pos = c :: rest)
    (hne : c ≠ sep) (hf : find data sep pos = some j) : ∃ r, slice data pos j = c :: r := by
  obtain ⟨-, hdrop, -⟩ := drop_eq_of_find hf
  rw [hc] at hdrop
  cases hs : slice data pos j with
  | nil => rw [hs] at hdrop; exact absurd (List.cons.inj hdrop).1 hne
  | cons c' r => rw [hs] at hdrop; exact ⟨r, by rw [(List.cons.inj hdrop).1]⟩

/-- The text from `a` is the slice of the next `k` characters, then the text from `a + k`. -/
theorem drop_eq_slice_append (a k : Nat) :
    data.drop a = slice data a (a + k) ++ data.drop (a + k) := by
  rw [slice, Nat.add_sub_cancel_left, ← List.drop_drop, List.take_append_drop]

theorem length_slice {a k : Nat} (h : a + k ≤ data.length) :
    (slice data a (a + k)).length = k := by
  simp only [slice, Nat.add_sub_cancel_left, List.length_take, List.length_drop]
  omega

theorem drop_add_of_drop_eq (h : data.drop pos = pre ++ rest) :
    data.drop (pos + pre.length) = rest := by
  rw [← List.drop_drop, h, List.drop_left]

/-- A suffix of the text is what remains from its start. -/
theorem drop_of_suffix (h : rest <:+ data) : data.drop (data.length - rest.length) = rest := by
  obtain ⟨l, rfl⟩ := h
  simp

theorem slice_of_drop_eq (h : data.drop pos = pre ++ rest) :
    slice data pos (pos + pre.length) = pre := by
  simp [slice, h]

/-- `split(sep, 1)` of a text with no `sep` before its first one. -/
theorem splitOnce_append_cons (hc : c ∉ pre) : splitOnce c (pre ++ c :: rest) = [pre, rest] := by
  have hw : (pre ++ c :: rest).takeWhile (fun x => !decide (x = c)) = pre := by
    rw [List.takeWhile_append_of_pos (fun x hx => by simpa using ne_of_mem_of_not_mem hx hc)]
    simp
  have hd : (pre ++ c :: rest).dropWhile (fun x => !decide (x = c)) = c :: rest := by
    rw [List.dropWhile_append_of_pos (fun x hx => by simpa using ne_of_mem_of_not_mem hx hc)]
    simp
  simp [splitOnce, List.span_eq_take_drop, hw, hd]

/-- A text splits at most one way at the first `c`, when neither part before it holds one. -/
theorem eq_of_append_cons_eq {pre' rest' : List Char} (hp : c ∉ pre) (hq : c ∉ pre')
    (h : pre ++ c :: rest = pre' ++ c :: rest') : pre = pre' ∧ rest = rest' := by
  have : splitOnce c (pre ++ c :: rest) = [pre, rest] := splitOnce_append_cons hp
  rw [h, splitOnce_append_cons hq] at this
  simp only [List.cons.injEq, and_true] at this
  exact ⟨this.1.symm, this.2.symm⟩

end Remaining

end NgBencode
