import NgBencode.Str

/-!
# A fragment of `sre`, Python's regular expression engine

`test_full_auth.py` reads a SIP challenge with `re.search`: `WWW-Authenticate: (.+)` cuts the
header out of the answer, and `realm="([^"]*)"` and `nonce="([^"]*)"` read its two parameters.
`sre_compile` turns each pattern into a short opcode program: a `LITERAL` for each character of
the fixed text, `MARK 0` and `MARK 1` around the group, a `REPEAT_ONE` for `[^"]*` (of
`NOT_LITERAL "`) and for `.+` (of `ANY`), and a last `LITERAL "` after the quoted group. This
module runs such programs as `_sre.c` does: `REPEAT_ONE` first takes every character it can and
then gives them back one at a time until the rest of the program matches (`sreMatch`), and the
search tries each start position from the left (`sreSearch`).

What the two patterns find can be said without the engine (`quotedParam`, `headerValue`): the
text from the first `key="` to the next `"`, and the rest of the line after the first `name: `
that has one. The engine computes exactly that, for every key and every text.

## Main results

* `sreMatch_literals`: the fixed text at the head of a program.
* `sreMatch_quotedTail_append`, `sreMatch_quotedTail_of_not_mem`, `sreMatch_lineTail`: the
  greedy repeat and its backtracking, for the two tails the patterns have.
* `searchGroup_quotedParamPattern`: `re.search(r'key="([^"]*)"', s).group(1)` is `quotedParam`.
* `searchGroup_headerPattern`: `re.search(r'name: (.+)', s).group(1)` is `headerValue`.
* `searchGroup_patterns`: the two together.
-/

namespace NgBencode

/-! ### The engine -/

/-- An opcode that reads one character: `LITERAL c`, `NOT_LITERAL c` (the set `[^c]`, which
`sre_parse` writes so) and `ANY` (`.`, which does not read a newline). -/
inductive CharOp
  | literal (c : Char)
  | notLiteral (c : Char)
  | any
  deriving DecidableEq, Repr

/-- Whether the opcode reads the character `x`. -/
def CharOp.accepts : CharOp → Char → Bool
  | .literal c, x => x = c
  | .notLiteral c, x => x ≠ c
  | .any, x => x ≠ '\n'

/-- The opcodes of a compiled pattern that the scripts' patterns use: one character,
`REPEAT_ONE` of one character from a lower bound up to `MAXREPEAT`, and `MARK n`, which
records the position in slot `n` (group `g` has the slots `2g - 2` and `2g - 1`). -/
inductive Op
  | char (op : CharOp)
  | repeatOne (op : CharOp) (min : Nat)
  | mark (n : Nat)
  deriving DecidableEq, Repr

/-- `SRE(count)`: how many of the next characters the opcode reads. -/
def countRun (op : CharOp) : List Char → Nat
  | [] => 0
  | c :: s => if op.accepts c then countRun op s + 1 else 0

/-- The backtracking loop of `REPEAT_ONE`: the rest of the program after `count` characters,
then after one fewer, down to `min`. -/
def backtrack {α : Type} (tail : Nat → Option α) (min : Nat) : Nat → Option α
  | 0 => if min = 0 then tail 0 else none
  | count + 1 =>
    if min ≤ count + 1 then
      match tail (count + 1) with
      | some r => some r
      | none => backtrack tail min count
    else none

/-- `SRE(match)`: the program run from position `pos`, where `s` is the text from there on,
with the marks set so far; where the match ends and its marks. -/
def sreMatch : List Op → Nat → List Char → List (Nat × Nat) → Option (Nat × List (Nat × Nat))
  | [], pos, _, marks => some (pos, marks)
  | .char op :: ops, pos, s, marks =>
    match s with
    | c :: s => if op.accepts c then sreMatch ops (pos + 1) s marks else none
    | [] => none
  | .repeatOne op min :: ops, pos, s, marks =>
    backtrack (fun k => sreMatch ops (pos + k) (s.drop k) marks) min (countRun op s)
  | .mark n :: ops, pos, s, marks => sreMatch ops pos s ((n, pos) :: marks)

/-- `SRE(search)`: the program from each position in turn, from `pos` on; where the first
match starts, where it ends, and its marks. -/
def sreSearch (ops : List Op) : Nat → List Char → Option (Nat × Nat × List (Nat × Nat))
  | pos, [] => (sreMatch ops pos [] []).map fun r => (pos, r)
  | pos, c :: s =>
    match sreMatch ops pos (c :: s) [] with
    | some r => some (pos, r)
    | none => sreSearch ops (pos + 1) s

/-- `m.group(1)` for a match of `string` with these marks: the text between slots `0` and
`1`. -/
def group1 (string : List Char) (marks : List (Nat × Nat)) : Option (List Char) :=
  match marks.lookup 0, marks.lookup 1 with
  | some a, some b => some (slice string a b)
  | _, _ => none

/-- `m.group(1) if m else None` for `m = re.search(pattern, string)`. -/
def searchGroup (ops : List Op) (string : List Char) : Option (List Char) :=
  (sreSearch ops 0 string).bind fun m => group1 string m.2.2

/-! ### The patterns -/

/-- The opcodes `sre_compile` writes for fixed text: a `LITERAL` for each character. -/
def literals (w : List Char) : List Op :=
  w.map fun c => .char (.literal c)

/-- `([^"]*)"`: the group over the greedy run of characters other than `"`, then the closing
`"`. -/
def quotedTail : List Op :=
  [.mark 0, .repeatOne (.notLiteral '\x22') 0, .mark 1, .char (.literal '\x22')]

/-- `key="([^"]*)"`, compiled. -/
def quotedParamPattern (key : List Char) : List Op :=
  literals (key ++ ['=', '\x22']) ++ quotedTail

/-- `(.+)` at the end of a pattern: the group over the greedy run of characters of a line, at
least one. -/
def lineTail : List Op :=
  [.mark 0, .repeatOne .any 1, .mark 1]

/-- `name: (.+)`, compiled. -/
def headerPattern (name : List Char) : List Op :=
  literals (name ++ [':', ' ']) ++ lineTail

/-- What `key="([^"]*)"` finds, said without the engine: the text from the first `key="` to
the next `"`, and nothing when no `"` follows it. -/
def quotedParam (key : List Char) : List Char → Option (List Char)
  | [] => none
  | c :: s =>
    if (key ++ ['=', '\x22']).isPrefixOf (c :: s) then
      let rest := s.drop (key.length + 1)
      if '\x22' ∈ rest then some (rest.takeWhile (· ≠ '\x22')) else none
    else quotedParam key s

/-- What `name: (.+)` finds, said without the engine: the rest of the line after the first
`name: ` that is followed by a character of the line. -/
def headerValue (name : List Char) : List Char → Option (List Char)
  | [] => none
  | c :: s =>
    let value := (s.drop (name.length + 1)).takeWhile (· ≠ '\n')
    if (name ++ [':', ' ']).isPrefixOf (c :: s) ∧ value ≠ [] then some value
    else headerValue name s

/-! ### Runs of the engine -/

section Engine

variable {α : Type} {tail : Nat → Option α} {min : Nat}

theorem countRun_append_cons {op : CharOp} {v : List Char} {c : Char} (t : List Char)
    (hv : ∀ x ∈ v, op.accepts x) (hc : op.accepts c = false) :
    countRun op (v ++ c :: t) = v.length := by
  induction v with
  | nil => simp [countRun, hc]
  | cons x v ih =>
    rw [List.forall_mem_cons] at hv
    simp [countRun, hv.1, ih hv.2]

/-- When the rest of the program matches after all `count` characters, the repeat takes them
all. -/
theorem backtrack_of_tail {count : Nat} {r : α} (hmin : min ≤ count)
    (h : tail count = some r) : backtrack tail min count = some r := by
  cases count with
  | zero => simp [backtrack, Nat.le_zero.mp hmin, h]
  | succ count => simp [backtrack, hmin, h]

/-- When the rest of the program matches after none of the counts, neither does the repeat. -/
theorem backtrack_eq_none : ∀ {count : Nat}, (∀ k ≤ count, tail k = none) →
    backtrack tail min count = none
  | 0, h => by simp [backtrack, h 0 le_rfl]
  | count + 1, h => by
    simp only [backtrack, h (count + 1) le_rfl,
      backtrack_eq_none fun k hk => h k (Nat.le_succ_of_le hk), ite_self]

/-- The fixed text at the head of a program is matched character by character. -/
theorem sreMatch_literals (w : List Char) (ops : List Op) (pos : Nat) (s : List Char)
    (marks : List (Nat × Nat)) :
    sreMatch (literals w ++ ops) pos s marks =
      if w.isPrefixOf s then sreMatch ops (pos + w.length) (s.drop w.length) marks
      else none := by
  induction w generalizing pos s with
  | nil => simp [literals]
  | cons a w ih =>
    cases s with
    | nil => simp [literals, sreMatch]
    | cons c s =>
      simp only [literals, List.map_cons, List.cons_append, sreMatch, CharOp.accepts,
        List.isPrefixOf, Bool.and_eq_true, beq_iff_eq] at ih ⊢
      by_cases h : c = a
      · subst h
        simp [ih, Nat.add_right_comm, Nat.add_assoc]
      · simp [h, Ne.symm h]

/-- `([^"]*)"` on text with a `"`: the group is the text before the first one. -/
theorem sreMatch_quotedTail_append {v : List Char} (t : List Char) (hv : '\x22' ∉ v)
    (pos : Nat) (marks : List (Nat × Nat)) :
    sreMatch quotedTail pos (v ++ '\x22' :: t) marks =
      some (pos + v.length + 1, (1, pos + v.length) :: (0, pos) :: marks) := by
  have hrun : countRun (.notLiteral '\x22') (v ++ '\x22' :: t) = v.length :=
    countRun_append_cons t (fun x hx => by simpa [CharOp.accepts] using ne_of_mem_of_not_mem hx hv)
      (by simp [CharOp.accepts])
  simp only [quotedTail, sreMatch, hrun]
  exact backtrack_of_tail (Nat.zero_le _) (by simp [sreMatch, CharOp.accepts])

/-- `([^"]*)"` on text without a `"`: no count of the repeat leaves a `"` to close it. -/
theorem sreMatch_quotedTail_of_not_mem {s : List Char} (hs : '\x22' ∉ s) (pos : Nat)
    (marks : List (Nat × Nat)) : sreMatch quotedTail pos s marks = none := by
  simp only [quotedTail, sreMatch]
  refine backtrack_eq_none fun k _ => ?_
  cases h : s.drop k with
  | nil => rfl
  | cons c t =>
    have hc : c ≠ '\x22' := fun hc => hs (List.mem_of_mem_drop (hc ▸ h ▸ List.mem_cons_self c t))
    simp [sreMatch, CharOp.accepts, hc]

/-- `(.+)` at the end of a program: the group is the rest of the line, when it is not
empty. -/
theorem sreMatch_lineTail (pos : Nat) (s : List Char) (marks : List (Nat × Nat)) :
    sreMatch lineTail pos s marks =
      let n := (s.takeWhile (· ≠ '\n')).length
      if n = 0 then none else some (pos + n, (1, pos + n) :: (0, pos) :: marks) := by
  have hrun : countRun .any s = (s.takeWhile (· ≠ '\n')).length := by
    induction s with
    | nil => rfl
    | cons c s ih => by_cases h : c = '\n' <;> simp [countRun, CharOp.accepts, h, ih]
  simp only [lineTail, sreMatch, hrun]
  split_ifs with h
  · rw [h]; rfl
  · exact backtrack_of_tail (Nat.one_le_iff_ne_zero.mpr h) rfl

end Engine

/-! ### What the searches find -/

section Search

variable {string : List Char}

theorem group1_marks {a b : Nat} :
    group1 string [(1, b), (0, a)] = some (slice string a b) := by
  rfl

/-- A text that holds a `"` is the text before its first `"`, that `"`, and the rest. -/
theorem eq_takeWhile_append_cons {s : List Char} (h : '\x22' ∈ s) :
    ∃ t, s = s.takeWhile (· ≠ '\x22') ++ '\x22' :: t := by
  induction s with
  | nil => simp at h
  | cons c s ih =>
    by_cases hc : c = '\x22'
    · exact ⟨s, by simp [hc]⟩
    · obtain ⟨t, ht⟩ := ih ((List.mem_cons.mp h).resolve_left (Ne.symm hc))
      refine ⟨t, ?_⟩
      rw [List.takeWhile_cons, if_pos (decide_eq_true hc), List.cons_append, ← ht]

theorem not_mem_takeWhile (s : List Char) : '\x22' ∉ s.takeWhile (· ≠ '\x22') := fun h => by
  simpa using List.mem_takeWhile_imp h

/-- The text after a `"` that no `"` follows holds no `key="` with a value. -/
theorem quotedParam_eq_none {key : List Char} :
    ∀ {s : List Char} {n : Nat}, n ≤ key.length + 2 → '\x22' ∉ s.drop n →
      quotedParam key s = none
  | [], _, _, _ => rfl
  | c :: s, n, hn, hq => by
    have hrest : '\x22' ∉ s.drop (key.length + 1) := fun h =>
      hq ((List.drop_sublist_drop_left (c :: s) hn).subset (by simpa using h))
    have hs : '\x22' ∉ s.drop (n - 1) := by
      cases n with
      | zero => exact fun h => hq (List.mem_cons_of_mem c (List.mem_of_mem_drop h))
      | succ n => simpa using hq
    rw [quotedParam]
    split_ifs
    · exact if_neg hrest
    · exact quotedParam_eq_none (by omega) hs

theorem sreMatch_quotedParamPattern (key : List Char) (pos : Nat) (s : List Char)
    (marks : List (Nat × Nat)) :
    sreMatch (quotedParamPattern key) pos s marks =
      if (key ++ ['=', '\x22']).isPrefixOf s then
        sreMatch quotedTail (pos + (key.length + 2)) (s.drop (key.length + 2)) marks
      else none := by
  simp [quotedParamPattern, sreMatch_literals]

theorem searchGroup_quotedParamPattern_from (key : List Char) :
    ∀ (s : List Char) (pos : Nat), string.drop pos = s →
      (sreSearch (quotedParamPattern key) pos s).bind (fun m => group1 string m.2.2) =
        quotedParam key s
  | [], pos, _ => by
    simp [sreSearch, sreMatch_quotedParamPattern, quotedParam]
  | c :: s, pos, hs => by
    have ih := searchGroup_quotedParamPattern_from key s (pos + 1)
      (by rw [← List.drop_drop, hs]; rfl)
    simp only [sreSearch, sreMatch_quotedParamPattern, quotedParam]
    by_cases hp : (key ++ ['=', '\x22']).isPrefixOf (c :: s)
    · simp only [hp, if_true, List.drop_succ_cons]
      by_cases hq : '\x22' ∈ s.drop (key.length + 1)
      · obtain ⟨t, ht⟩ := eq_takeWhile_append_cons hq
        have hv := not_mem_takeWhile (s.drop (key.length + 1))
        generalize (s.drop (key.length + 1)).takeWhile (· ≠ '\x22') = v at ht hv ⊢
        have hdrop : string.drop (pos + (key.length + 2)) = v ++ '\x22' :: t := by
          rw [← List.drop_drop, hs, List.drop_succ_cons, ht]
        rw [ht, sreMatch_quotedTail_append t hv, if_pos (List.mem_append_right _
          (List.mem_cons_self _ _))]
        simp only [Option.some_bind, group1_marks, slice, Nat.add_sub_cancel_left, hdrop,
          List.take_left' rfl]
      · simp only [sreMatch_quotedTail_of_not_mem hq, if_neg hq, ih]
        exact quotedParam_eq_none (n := key.length + 1) (by omega) hq
    · simp only [hp, if_false]
      exact ih

theorem take_length_takeWhile (p : Char → Bool) (l : List Char) :
    l.take (l.takeWhile p).length = l.takeWhile p := by
  induction l with
  | nil => rfl
  | cons c l ih => by_cases h : p c <;> simp [List.takeWhile_cons, h, ih]

theorem sreMatch_headerPattern (name : List Char) (pos : Nat) (s : List Char)
    (marks : List (Nat × Nat)) :
    sreMatch (headerPattern name) pos s marks =
      if (name ++ [':', ' ']).isPrefixOf s then
        sreMatch lineTail (pos + (name.length + 2)) (s.drop (name.length + 2)) marks
      else none := by
  simp [headerPattern, sreMatch_literals]

theorem searchGroup_headerPattern_from (name : List Char) :
    ∀ (s : List Char) (pos : Nat), string.drop pos = s →
      (sreSearch (headerPattern name) pos s).bind (fun m => group1 string m.2.2) =
        headerValue name s
  | [], pos, _ => by
    simp [sreSearch, sreMatch_headerPattern, headerValue]
  | c :: s, pos, hs => by
    have ih := searchGroup_headerPattern_from name s (pos + 1)
      (by rw [← List.drop_drop, hs]; rfl)
    simp only [sreSearch, sreMatch_headerPattern, headerValue, List.drop_succ_cons,
      sreMatch_lineTail]
    by_cases hp : (name ++ [':', ' ']).isPrefixOf (c :: s)
    · by_cases hv : (s.drop (name.length + 1)).takeWhile (· ≠ '\n') = []
      · simp only [hp, hv, List.length_nil, if_true, ne_eq, not_true_eq_false, and_false,
          if_false, ih]
      · have hdrop : string.drop (pos + (name.length + 2)) = s.drop (name.length + 1) := by
          rw [← List.drop_drop, hs, List.drop_succ_cons]
        simp only [hp, hv, List.length_eq_zero, if_false, if_true, ne_eq, not_false_eq_true,
          and_self, Option.some_bind, group1_marks, slice, Nat.add_sub_cancel_left, hdrop,
          take_length_takeWhile]
    · simp only [hp, if_false, Bool.false_eq_true, false_and, ih]

/-- `re.search(r'key="([^"]*)"', s).group(1)`, for every key and every text. -/
theorem searchGroup_quotedParamPattern (key s : List Char) :
    searchGroup (quotedParamPattern key) s = quotedParam key s :=
  @searchGroup_quotedParamPattern_from s key s 0 rfl

/-- `re.search(r'name: (.+)', s).group(1)`, for every name and every text. -/
theorem searchGroup_headerPattern (name s : List Char) :
    searchGroup (headerPattern name) s = headerValue name s :=
  @searchGroup_headerPattern_from s name s 0 rfl

/-- **The engine computes the two readings**: for every key, header name and text, the group `sre`
finds for `key="([^"]*)"` is `quotedParam key`, and the one it finds for `name: (.+)` is
`headerValue name`. -/
theorem searchGroup_patterns (key name s : List Char) :
    searchGroup (quotedParamPattern key) s = quotedParam key s ∧
      searchGroup (headerPattern name) s = headerValue name s :=
  ⟨searchGroup_quotedParamPattern key s, searchGroup_headerPattern name s⟩

/-! ### What the patterns find in text made of pieces -/

/-- Text with no `c` up to a `c`: the run before the first `c` is that text. -/
theorem takeWhile_append_cons {c : Char} {a : List Char} (b : List Char) (ha : c ∉ a) :
    (a ++ c :: b).takeWhile (· ≠ c) = a := by
  rw [List.takeWhile_append_of_pos (fun x hx => by simpa using ne_of_mem_of_not_mem hx ha)]
  simp

/-- Text without `q` up to a `q` starts with `u` and then `q`, for `u` without `q`, only when
that text is `u`. -/
theorem isPrefixOf_append_cons_iff {q : Char} {u a : List Char} (b : List Char) (hu : q ∉ u)
    (ha : q ∉ a) : (u ++ [q]).isPrefixOf (a ++ q :: b) ↔ u = a := by
  rw [List.isPrefixOf_iff_prefix]
  constructor
  · rintro ⟨w, hw⟩
    have := congrArg (List.takeWhile (· ≠ q)) hw
    rwa [List.append_assoc, List.singleton_append, takeWhile_append_cons _ hu,
      takeWhile_append_cons _ ha] at this
  · rintro rfl
    exact ⟨b, by simp⟩

/-- A prefix made of characters the test keeps stays a prefix of the run the test keeps. -/
theorem prefix_takeWhile {p : Char → Bool} {u l : List Char} (h : u <+: l)
    (hu : ∀ x ∈ u, p x) : u <+: l.takeWhile p := by
  obtain ⟨w, rfl⟩ := h
  rw [List.takeWhile_append_of_pos hu]
  exact List.prefix_append _ _

/-- In text made of pieces without `"`, a `key="` starts before the first `"` only when the
piece before that `"` ends with `key=`; then its value is what the next `"` closes. -/
theorem quotedParam_append_quote {key a : List Char} (b : List Char) (hkey : '\x22' ∉ key)
    (ha : '\x22' ∉ a) :
    quotedParam key (a ++ '\x22' :: b) =
      if key ++ ['='] <:+ a then
        if '\x22' ∈ b then some (b.takeWhile (· ≠ '\x22')) else none
      else quotedParam key b := by
  have hu : '\x22' ∉ key ++ ['='] := by simpa using hkey
  induction a with
  | nil =>
    have hp : (key ++ ['=', '\x22']).isPrefixOf ('\x22' :: b) = false := by
      cases key with
      | nil => rfl
      | cons k key =>
        have hk : k ≠ '\x22' := fun h => hkey (h ▸ List.mem_cons_self _ _)
        simp [List.isPrefixOf, hk]
    rw [if_neg (fun h => by simpa using h.length_le), List.nil_append, quotedParam, if_neg (by simp [hp])]
  | cons c a ih =>
    rw [List.mem_cons, not_or] at ha
    -- the `key="` at the head is the one that ends at the first `"`
    have hstarts : (key ++ ['=', '\x22']).isPrefixOf (c :: (a ++ '\x22' :: b)) ↔
        key ++ ['='] = c :: a := by
      rw [show key ++ ['=', '\x22'] = key ++ ['='] ++ ['\x22'] by simp, ← List.cons_append]
      exact isPrefixOf_append_cons_iff b hu (by simpa using ha)
    rw [List.cons_append, quotedParam]
    by_cases h : key ++ ['='] = c :: a
    · have hlen : a.length = key.length := by simpa using (congrArg List.length h).symm
      rw [if_pos (hstarts.mpr h), if_pos (List.suffix_cons_iff.mpr (Or.inl h)), ← hlen,
        ← List.drop_drop, List.drop_left]
      rfl
    · rw [if_neg (fun h' => h (hstarts.mp h')), ih ha.2]
      simp only [List.suffix_cons_iff, h, false_or]

/-- A line without `name:` holds no header `name: `, not even one that would run into the next
line. -/
theorem headerValue_append_newline {name a : List Char} (b : List Char) (hname : '\n' ∉ name)
    (ha : '\n' ∉ a) (hocc : ¬ name ++ [':'] <:+: a) :
    headerValue name (a ++ '\n' :: b) = headerValue name b := by
  have hp : ∀ x ∈ name ++ [':', ' '], (x ≠ '\n' : Bool) := fun x hx => by
    simp only [List.mem_append, List.mem_cons, List.mem_singleton, List.not_mem_nil,
      or_false] at hx
    rcases hx with hx | rfl | rfl
    · simpa using ne_of_mem_of_not_mem hx hname
    all_goals decide
  induction a with
  | nil =>
    rw [List.nil_append, headerValue, if_neg]
    rintro ⟨h, -⟩
    have := prefix_takeWhile (List.isPrefixOf_iff_prefix.mp h) hp
    rw [List.takeWhile_cons] at this
    simpa using this.length_le
  | cons c a ih =>
    rw [List.mem_cons, not_or] at ha
    rw [List.cons_append, headerValue, if_neg, ih ha.2 (fun h => hocc (List.infix_cons h))]
    rintro ⟨h, -⟩
    have := prefix_takeWhile (List.isPrefixOf_iff_prefix.mp h) hp
    rw [← List.cons_append, takeWhile_append_cons _ (by simpa [List.mem_cons] using ha)] at this
    have hcolon : name ++ [':'] <+: name ++ [':', ' '] := ⟨[' '], by simp⟩
    exact hocc (hcolon.trans this).isInfix

end Search

end NgBencode
