import NgBencode.Wire

/-!
# `bytes.decode('utf-8', errors='ignore')`

Every script that reads RTPEngine's answer turns the datagram into text with
`data.decode('utf-8', errors='ignore')`. CPython's decoder (`unicode_decode_utf8`, with the
loop of `stringlib/codecs.h`) reads a character at each position; where the bytes there are not
a well-formed sequence, it reports the error for the maximal ill-formed prefix (the lead byte
and the continuation bytes it accepted), and the `ignore` handler skips exactly those bytes.
`decodeStep` is one turn of that loop, and `decodeUtf8Ignore` the loop over the whole datagram.

What a turn can do is said once (`decodeStep_spec`): it consumes at least one byte, and either
writes the character whose encoding is exactly the bytes consumed, or writes nothing and
consumes only bytes from `0x80` up. Everything else follows from it by induction on the bytes.

## Main results

* `decodeUtf8Ignore_encodeUtf8`: decoding gives back every text a peer encodes.
* `encodeUtf8_decodeUtf8Ignore_sublist`: the handler only deletes bytes; it never alters or
  reorders what it keeps.
* `filter_decodeUtf8Ignore`: no ASCII byte is ever dropped, so every delimiter of a bencode
  answer survives whatever garbage surrounds it.
* `decodeUtf8Ignore_spec`: the three together.
-/

namespace NgBencode

/-! ### The bytes `String.utf8EncodeChar` writes -/

section Bytes

private theorem toNat_and_or (x : UInt8) (k a : Nat) (hk : k ≤ 8) (ha : 2 ^ k * a < 256) :
    (x &&& UInt8.ofNat (2 ^ k - 1) ||| UInt8.ofNat (2 ^ k * a)).toNat =
      2 ^ k * a + x.toNat % 2 ^ k := by
  have h1 : 2 ^ k - 1 < 256 := by
    have : 2 ^ k ≤ 2 ^ 8 := Nat.pow_le_pow_right (by norm_num) hk
    omega
  show (x.toBitVec &&& (UInt8.ofNat (2 ^ k - 1)).toBitVec |||
    (UInt8.ofNat (2 ^ k * a)).toBitVec).toNat = _
  rw [BitVec.toNat_or, BitVec.toNat_and, UInt8.toBitVec_eq_of_lt h1, UInt8.toBitVec_eq_of_lt ha,
    Nat.and_pow_two_sub_one_eq_mod, Nat.or_comm,
    ← Nat.mul_add_lt_is_or (Nat.mod_lt _ (by positivity))]
  rfl

private theorem toNat_toUInt8 (v : UInt32) : v.toUInt8.toNat = v.toNat % 256 := by
  simp [UInt32.toUInt8, Nat.toUInt8, UInt8.toNat, UInt8.ofNat]

private theorem toNat_shiftRight (v n : UInt32) (hn : n.toNat < 32) :
    (v >>> n).toNat = v.toNat / 2 ^ n.toNat := by
  show (v.toBitVec >>> (n.mod 32).toBitVec).toNat = _
  simp only [BitVec.toNat_ushiftRight, BitVec.ushiftRight_eq', Nat.shiftRight_eq_div_pow]
  show v.toNat / 2 ^ (n % 32).toNat = _
  rw [UInt32.toNat_mod, show UInt32.toNat 32 = 32 from rfl, Nat.mod_eq_of_lt hn]

theorem toNat_lt_of_char (c : Char) : c.toNat < 0x110000 := by
  have := c.valid
  simp only [UInt32.isValidChar, Nat.isValidChar] at this
  simp only [Char.toNat]
  omega

/-- A code that is not a surrogate and is below `0x110000` is the code of `Char.ofNat` of it. -/
theorem toNat_ofNat_of_valid {n : Nat} (h : n < 0xD800 ∨ 0xDFFF < n ∧ n < 0x110000) :
    (Char.ofNat n).toNat = n := by
  have hv : n.isValidChar := h
  simp only [Char.ofNat, hv, dite_true, Char.ofNatAux, Char.toNat]
  show (UInt32.ofNat' n _).toNat = n
  simp [UInt32.ofNat', UInt32.toNat]

/-- The bytes UTF-8 gives the code `n`, as numbers: one byte below `0x80`, then a lead byte
`110xxxxx`, `1110xxxx` or `11110xxx` with one, two or three continuation bytes `10xxxxxx`. -/
def utf8Bytes (n : Nat) : List Nat :=
  if n < 0x80 then [n]
  else if n < 0x800 then [0xC0 + n / 64, 0x80 + n % 64]
  else if n < 0x10000 then [0xE0 + n / 4096, 0x80 + n / 64 % 64, 0x80 + n % 64]
  else [0xF0 + n / 262144, 0x80 + n / 4096 % 64, 0x80 + n / 64 % 64, 0x80 + n % 64]

theorem map_toNat_utf8EncodeChar (c : Char) :
    (String.utf8EncodeChar c).map UInt8.toNat = utf8Bytes c.toNat := by
  have hlt := toNat_lt_of_char c
  have hv : c.val.toNat = c.toNat := rfl
  have b1 : ∀ x : UInt8, (x &&& 0x1f ||| 0xc0).toNat = 0xc0 + x.toNat % 32 :=
    fun x => toNat_and_or x 5 6 (by norm_num) (by norm_num)
  have b2 : ∀ x : UInt8, (x &&& 0x3f ||| 0x80).toNat = 0x80 + x.toNat % 64 :=
    fun x => toNat_and_or x 6 2 (by norm_num) (by norm_num)
  have b3 : ∀ x : UInt8, (x &&& 0x0f ||| 0xe0).toNat = 0xe0 + x.toNat % 16 :=
    fun x => toNat_and_or x 4 14 (by norm_num) (by norm_num)
  have b4 : ∀ x : UInt8, (x &&& 0x07 ||| 0xf0).toNat = 0xf0 + x.toNat % 8 :=
    fun x => toNat_and_or x 3 30 (by norm_num) (by norm_num)
  have s6 : (c.val >>> 6).toNat = c.toNat / 64 := toNat_shiftRight c.val 6 (by decide)
  have s12 : (c.val >>> 12).toNat = c.toNat / 4096 := toNat_shiftRight c.val 12 (by decide)
  have s18 : (c.val >>> 18).toNat = c.toNat / 262144 := toNat_shiftRight c.val 18 (by decide)
  unfold String.utf8EncodeChar utf8Bytes
  by_cases h1 : c.toNat < 0x80
  · have : c.val ≤ 0x7f := show c.toNat ≤ 0x7f by omega
    simp [this, h1, toNat_toUInt8, hv]
    omega
  have n1 : ¬ c.val ≤ 0x7f := show ¬ c.toNat ≤ 0x7f by omega
  by_cases h2 : c.toNat < 0x800
  · have : c.val ≤ 0x7ff := show c.toNat ≤ 0x7ff by omega
    simp [n1, this, h1, h2, toNat_toUInt8, hv, b1, b2, s6]
    omega
  have n2 : ¬ c.val ≤ 0x7ff := show ¬ c.toNat ≤ 0x7ff by omega
  by_cases h3 : c.toNat < 0x10000
  · have : c.val ≤ 0xffff := show c.toNat ≤ 0xffff by omega
    simp [n1, n2, this, h1, h2, h3, toNat_toUInt8, hv, b2, b3, s6, s12]
    omega
  have n3 : ¬ c.val ≤ 0xffff := show ¬ c.toNat ≤ 0xffff by omega
  simp [n1, n2, n3, h1, h2, h3, toNat_toUInt8, hv, b2, b4, s6, s12, s18]
  omega

/-- A character is encoded as the bytes whose numbers are `utf8Bytes` of its code. -/
theorem utf8EncodeChar_eq_of_utf8Bytes {c : Char} {bs : List UInt8}
    (h : utf8Bytes c.toNat = bs.map UInt8.toNat) : String.utf8EncodeChar c = bs :=
  List.map_injective_iff.mpr (fun _ _ => UInt8.toNat.inj) ((map_toNat_utf8EncodeChar c).trans h)

/-- Past ASCII, every byte of an encoding is from `0x80` up. -/
theorem le_toNat_of_mem_utf8EncodeChar {c : Char} (hc : 128 ≤ c.toNat) {x : UInt8}
    (hx : x ∈ String.utf8EncodeChar c) : 0x80 ≤ x.toNat := by
  have hm : x.toNat ∈ utf8Bytes c.toNat :=
    map_toNat_utf8EncodeChar c ▸ List.mem_map_of_mem _ hx
  unfold utf8Bytes at hm
  split_ifs at hm <;> simp only [List.mem_cons, List.mem_singleton, List.not_mem_nil,
    or_false] at hm <;> omega

end Bytes

/-! ### The decoder -/

/-- `IS_CONTINUATION_BYTE(ch)`: a byte `10xxxxxx`. -/
def isContinuation (b : UInt8) : Bool :=
  0x80 ≤ b.toNat && b.toNat < 0xC0

/-- The second byte of a three-byte sequence led by `ch` is refused: it is not a continuation
byte, or it makes an overlong form (`E0` with less than `A0`) or a surrogate (`ED` with `A0` or
more). `utf8_decode` makes the check with the whole sequence there and when it is cut short. -/
def badSecond3 (ch : Nat) (b2 : UInt8) : Bool :=
  !isContinuation b2 || (if b2.toNat < 0xA0 then ch == 0xE0 else ch == 0xED)

/-- The second byte of a four-byte sequence led by `ch` is refused: not a continuation byte,
an overlong form (`F0` with less than `90`), or past U+10FFFF (`F4` with `90` or more). -/
def badSecond4 (ch : Nat) (b2 : UInt8) : Bool :=
  !isContinuation b2 || (if b2.toNat < 0x90 then ch == 0xF0 else ch == 0xF4)

/-- One turn of the loop of `unicode_decode_utf8` with the `ignore` handler, at a position
with the bytes `bs` left: the character `utf8_decode` writes there, if any, and how many bytes
the position moves. An invalid start byte moves it by one; an invalid continuation byte by the
bytes before it (`InvalidContinuation1` to `3`); a sequence cut short by the end of the data
(`unexpected end of data`) to the end. -/
def decodeStep : List UInt8 → Option Char × Nat
  | [] => (none, 0)
  | b :: rest =>
    let ch := b.toNat
    if ch < 0x80 then (some (Char.ofNat ch), 1)
    else if ch < 0xE0 then
      if ch < 0xC2 then (none, 1)
      else match rest with
        | [] => (none, 1)
        | b2 :: _ =>
          if !isContinuation b2 then (none, 1)
          else (some (Char.ofNat ((ch <<< 6) + b2.toNat - ((0xC0 <<< 6) + 0x80))), 2)
    else if ch < 0xF0 then
      match rest with
      | [] => (none, 1)
      | [b2] => if badSecond3 ch b2 then (none, 1) else (none, 2)
      | b2 :: b3 :: _ =>
        if badSecond3 ch b2 then (none, 1)
        else if !isContinuation b3 then (none, 2)
        else (some (Char.ofNat ((ch <<< 12) + (b2.toNat <<< 6) + b3.toNat -
          ((0xE0 <<< 12) + (0x80 <<< 6) + 0x80))), 3)
    else if ch < 0xF5 then
      match rest with
      | [] => (none, 1)
      | [b2] => if badSecond4 ch b2 then (none, 1) else (none, 2)
      | [b2, b3] =>
        if badSecond4 ch b2 then (none, 1) else if !isContinuation b3 then (none, 2) else (none, 3)
      | b2 :: b3 :: b4 :: _ =>
        if badSecond4 ch b2 then (none, 1)
        else if !isContinuation b3 then (none, 2)
        else if !isContinuation b4 then (none, 3)
        else (some (Char.ofNat ((ch <<< 18) + (b2.toNat <<< 12) + (b3.toNat <<< 6) + b4.toNat -
          ((0xF0 <<< 18) + (0x80 <<< 12) + (0x80 <<< 6) + 0x80))), 4)
    else (none, 1)

/-- The loop `while (s < end)` of `unicode_decode_utf8`, for at most `fuel` turns. -/
def decodeLoop : Nat → List UInt8 → List Char
  | 0, _ => []
  | _ + 1, [] => []
  | fuel + 1, b :: bs =>
    (decodeStep (b :: bs)).1.toList ++ decodeLoop fuel ((b :: bs).drop (decodeStep (b :: bs)).2)

/-- `data.decode('utf-8', errors='ignore')`. Every turn moves at least one byte, so a turn a
byte is enough (`decodeLoop_of_le`). -/
def decodeUtf8Ignore (bs : List UInt8) : List Char :=
  decodeLoop bs.length bs

/-! ### One turn -/

/-- What a turn did with the bytes it consumed: wrote the character they encode, or wrote
nothing, and then none of them was ASCII. -/
def Consumed (used : List UInt8) : Option Char → Prop
  | some c => String.utf8EncodeChar c = used
  | none => ∀ x ∈ used, 0x80 ≤ x.toNat

section Step

variable {b b2 b3 b4 : UInt8}

private theorem isContinuation_iff : isContinuation b = true ↔ 0x80 ≤ b.toNat ∧ b.toNat < 0xC0 := by
  simp [isContinuation]

private theorem consumed_two (h1 : 0xC2 ≤ b.toNat) (h2 : b.toNat < 0xE0)
    (hc : isContinuation b2 = true) :
    Consumed [b, b2] (some (Char.ofNat ((b.toNat <<< 6) + b2.toNat - ((0xC0 <<< 6) + 0x80)))) := by
  rw [isContinuation_iff] at hc
  simp only [Nat.shiftLeft_eq] at *
  apply utf8EncodeChar_eq_of_utf8Bytes
  rw [toNat_ofNat_of_valid (by omega)]
  simp only [utf8Bytes, List.map_cons, List.map_nil]
  split_ifs <;> simp <;> omega

private theorem consumed_three (h1 : 0xE0 ≤ b.toNat) (h2 : b.toNat < 0xF0)
    (hb2 : badSecond3 b.toNat b2 = false) (hc : isContinuation b3 = true) :
    Consumed [b, b2, b3] (some (Char.ofNat ((b.toNat <<< 12) + (b2.toNat <<< 6) + b3.toNat -
      ((0xE0 <<< 12) + (0x80 <<< 6) + 0x80)))) := by
  simp only [badSecond3, Bool.or_eq_false_iff, Bool.not_eq_false'] at hb2
  obtain ⟨hc2, hr⟩ := hb2
  rw [isContinuation_iff] at hc hc2
  simp only [Nat.shiftLeft_eq] at *
  apply utf8EncodeChar_eq_of_utf8Bytes
  split_ifs at hr <;> simp only [beq_eq_false_iff_ne, ne_eq] at hr <;>
    rw [toNat_ofNat_of_valid (by omega)] <;>
    simp only [utf8Bytes, List.map_cons, List.map_nil] <;> split_ifs <;> simp <;> omega

private theorem consumed_four (h1 : 0xF0 ≤ b.toNat) (h2 : b.toNat < 0xF5)
    (hb2 : badSecond4 b.toNat b2 = false) (hc3 : isContinuation b3 = true)
    (hc4 : isContinuation b4 = true) :
    Consumed [b, b2, b3, b4] (some (Char.ofNat ((b.toNat <<< 18) + (b2.toNat <<< 12) +
      (b3.toNat <<< 6) + b4.toNat - ((0xF0 <<< 18) + (0x80 <<< 12) + (0x80 <<< 6) + 0x80)))) := by
  simp only [badSecond4, Bool.or_eq_false_iff, Bool.not_eq_false'] at hb2
  obtain ⟨hc2, hr⟩ := hb2
  rw [isContinuation_iff] at hc2 hc3 hc4
  simp only [Nat.shiftLeft_eq] at *
  apply utf8EncodeChar_eq_of_utf8Bytes
  split_ifs at hr <;> simp only [beq_eq_false_iff_ne, ne_eq] at hr <;>
    rw [toNat_ofNat_of_valid (by omega)] <;>
    simp only [utf8Bytes, List.map_cons, List.map_nil] <;> split_ifs <;> simp <;> omega

end Step

/-- **What one turn can do**: it moves past at least one byte and at most the bytes left, and
either writes the character those bytes encode, or writes nothing and skips no ASCII byte. -/
theorem decodeStep_spec (b : UInt8) (bs : List UInt8) :
    1 ≤ (decodeStep (b :: bs)).2 ∧ (decodeStep (b :: bs)).2 ≤ bs.length + 1 ∧
      Consumed ((b :: bs).take (decodeStep (b :: bs)).2) (decodeStep (b :: bs)).1 := by
  have hcont : ∀ x : UInt8, isContinuation x = true → 0x80 ≤ x.toNat :=
    fun x h => (isContinuation_iff.mp h).1
  have h3 : ∀ x : UInt8, badSecond3 b.toNat x = false → 0x80 ≤ x.toNat := fun x h => by
    simp only [badSecond3, Bool.or_eq_false_iff, Bool.not_eq_false'] at h
    exact hcont x h.1
  have h4 : ∀ x : UInt8, badSecond4 b.toNat x = false → 0x80 ≤ x.toNat := fun x h => by
    simp only [badSecond4, Bool.or_eq_false_iff, Bool.not_eq_false'] at h
    exact hcont x h.1
  -- split the turn's `if` chain once, in an equation, rather than in each of the three places
  -- the goal mentions it
  suffices h : ∀ r, decodeStep (b :: bs) = r →
      1 ≤ r.2 ∧ r.2 ≤ bs.length + 1 ∧ Consumed ((b :: bs).take r.2) r.1 from h _ rfl
  intro r hr
  unfold decodeStep at hr
  dsimp only at hr
  by_cases ha : b.toNat < 0x80
  · rw [if_pos ha] at hr
    subst hr
    refine ⟨le_rfl, by simp, ?_⟩
    apply utf8EncodeChar_eq_of_utf8Bytes
    rw [toNat_ofNat_of_valid (by omega)]
    simp [utf8Bytes, ha]
  rw [if_neg ha] at hr
  have skip : 1 ≤ 1 ∧ 1 ≤ bs.length + 1 ∧ Consumed ((b :: bs).take 1) none :=
    ⟨le_rfl, by simp, by simp [Consumed]; omega⟩
  by_cases hb : b.toNat < 0xE0
  · rw [if_pos hb] at hr
    split at hr
    · subst hr; exact skip
    rcases bs with _ | ⟨b2, bs⟩
    · subst hr; exact skip
    · dsimp only at hr
      split at hr
      · subst hr; exact skip
      · next h => subst hr; exact ⟨by simp, by simp, consumed_two (by omega) hb (by simpa using h)⟩
  rw [if_neg hb] at hr
  by_cases hc : b.toNat < 0xF0
  · rw [if_pos hc] at hr
    rcases bs with _ | ⟨b2, _ | ⟨b3, bs⟩⟩
    · subst hr; exact skip
    · dsimp only at hr
      split at hr
      · subst hr; exact skip
      · next h =>
        subst hr
        exact ⟨by simp, by simp, by simpa [Consumed] using ⟨by omega, h3 b2 (by simpa using h)⟩⟩
    · dsimp only at hr
      split at hr
      · subst hr; exact skip
      · next h =>
        split at hr
        · subst hr
          exact ⟨by simp, by simp, by simpa [Consumed] using ⟨by omega, h3 b2 (by simpa using h)⟩⟩
        · next h' =>
          subst hr
          exact ⟨by simp, by simp, consumed_three (by omega) (by omega) (by simpa using h)
            (by simpa using h')⟩
  rw [if_neg hc] at hr
  by_cases hd : b.toNat < 0xF5
  · rw [if_pos hd] at hr
    rcases bs with _ | ⟨b2, _ | ⟨b3, _ | ⟨b4, bs⟩⟩⟩
    · subst hr; exact skip
    · dsimp only at hr
      split at hr
      · subst hr; exact skip
      · next h =>
        subst hr
        exact ⟨by simp, by simp, by simpa [Consumed] using ⟨by omega, h4 b2 (by simpa using h)⟩⟩
    · dsimp only at hr
      split at hr
      · subst hr; exact skip
      · next h =>
        split at hr
        · subst hr
          exact ⟨by simp, by simp, by simpa [Consumed] using ⟨by omega, h4 b2 (by simpa using h)⟩⟩
        · next h' =>
          subst hr
          exact ⟨by simp, by simp, by simpa [Consumed] using
            ⟨by omega, h4 b2 (by simpa using h), hcont b3 (by simpa using h')⟩⟩
    · dsimp only at hr
      split at hr
      · subst hr; exact skip
      · next h =>
        split at hr
        · subst hr
          exact ⟨by simp, by simp, by simpa [Consumed] using ⟨by omega, h4 b2 (by simpa using h)⟩⟩
        · next h' =>
          split at hr
          · subst hr
            exact ⟨by simp, by simp, by simpa [Consumed] using
              ⟨by omega, h4 b2 (by simpa using h), hcont b3 (by simpa using h')⟩⟩
          · next h'' =>
            subst hr
            exact ⟨by simp, by simp, consumed_four (by omega) (by omega) (by simpa using h)
              (by simpa using h') (by simpa using h'')⟩
  · rw [if_neg hd] at hr
    subst hr; exact skip

/-! ### The loop -/

theorem decodeLoop_nil (fuel : Nat) : decodeLoop fuel [] = [] := by
  cases fuel <;> rfl

private theorem decodeLoop_congr : ∀ {fuel fuel' : Nat} {bs : List UInt8},
    bs.length ≤ fuel → bs.length ≤ fuel' → decodeLoop fuel bs = decodeLoop fuel' bs
  | 0, _, bs, h, _ => by rw [List.length_eq_zero.mp (Nat.le_zero.mp h), decodeLoop_nil,
      decodeLoop_nil]
  | _, _, [], _, _ => by rw [decodeLoop_nil, decodeLoop_nil]
  | _ + 1, 0, _ :: _, _, h' => absurd h' (by simp)
  | fuel + 1, fuel' + 1, b :: bs, h, h' => by
    have := (decodeStep_spec b bs).1
    simp only [decodeLoop]
    simp only [List.length_cons] at h h'
    rw [@decodeLoop_congr fuel fuel' _ (by rw [List.length_drop, List.length_cons]; omega)
      (by rw [List.length_drop, List.length_cons]; omega)]

/-- With a turn for every byte, the loop reads to the end of the data, whatever fuel is left
over. -/
theorem decodeLoop_of_le {fuel : Nat} {bs : List UInt8} (h : bs.length ≤ fuel) :
    decodeLoop fuel bs = decodeUtf8Ignore bs :=
  decodeLoop_congr h le_rfl

/-- The loop's equation: a turn at the first byte, then the loop from where it stopped. -/
theorem decodeUtf8Ignore_cons (b : UInt8) (bs : List UInt8) :
    decodeUtf8Ignore (b :: bs) = (decodeStep (b :: bs)).1.toList ++
      decodeUtf8Ignore ((b :: bs).drop (decodeStep (b :: bs)).2) := by
  have := (decodeStep_spec b bs).1
  rw [decodeUtf8Ignore, List.length_cons, decodeLoop, decodeLoop_of_le (by simp; omega)]

/-! ### Encoded text reads back -/

private theorem ofNat_eq_of_toNat {n : Nat} {c : Char} (h : n = c.toNat) : Char.ofNat n = c := by
  subst h
  exact Char.ofNat_toNat c

/-- A turn at the encoding of a character writes that character and moves past its bytes. -/
theorem decodeStep_utf8EncodeChar (c : Char) (rest : List UInt8) :
    decodeStep (String.utf8EncodeChar c ++ rest) = (some c, (String.utf8EncodeChar c).length) := by
  have hlt := toNat_lt_of_char c
  have hs : c.toNat < 0xD800 ∨ 0xDFFF < c.toNat := by
    have := c.valid
    simp only [UInt32.isValidChar, Nat.isValidChar] at this
    simp only [Char.toNat]
    omega
  have hm := map_toNat_utf8EncodeChar c
  generalize String.utf8EncodeChar c = l at hm ⊢
  unfold utf8Bytes at hm
  split_ifs at hm with h1 h2 h3 <;>
    rcases l with _ | ⟨x, _ | ⟨y, _ | ⟨z, _ | ⟨w, _ | ⟨v, l⟩⟩⟩⟩⟩ <;>
    simp only [List.map_cons, List.map_nil, List.cons.injEq, reduceCtorEq, and_false,
      false_and, and_true] at hm
  · simp only [decodeStep, List.cons_append, List.nil_append, hm, h1, if_true, List.length_cons,
      List.length_nil, ofNat_eq_of_toNat rfl]
  · obtain ⟨hx, hy⟩ := hm
    simp (disch := omega) only [decodeStep, List.cons_append, List.nil_append, hx, hy,
      isContinuation, Bool.and_eq_false_iff, Bool.not_eq_true', decide_eq_false_iff_not, if_pos,
      if_neg, Nat.shiftLeft_eq, Nat.reducePow, List.length_cons, List.length_nil]
    exact Prod.ext (congrArg some (ofNat_eq_of_toNat (by omega))) rfl
  · obtain ⟨hx, hy, hz⟩ := hm
    have hb : badSecond3 x.toNat y = false := by
      simp only [badSecond3, isContinuation, hx, hy, Bool.or_eq_false_iff, Bool.not_eq_false',
        Bool.and_eq_true, decide_eq_true_eq]
      split_ifs <;> simp only [beq_eq_false_iff_ne, ne_eq] <;> omega
    simp only [decodeStep, List.cons_append, List.nil_append, hb]
    simp (disch := omega) only [hx, hz, isContinuation, Bool.and_eq_false_iff, Bool.not_eq_true',
      decide_eq_false_iff_not, Bool.false_eq_true, if_false, if_pos, if_neg, Nat.shiftLeft_eq,
      Nat.reducePow, List.length_cons, List.length_nil]
    exact Prod.ext (congrArg some (ofNat_eq_of_toNat (by omega))) rfl
  · obtain ⟨hx, hy, hz, hw⟩ := hm
    have hb : badSecond4 x.toNat y = false := by
      simp only [badSecond4, isContinuation, hx, hy, Bool.or_eq_false_iff, Bool.not_eq_false',
        Bool.and_eq_true, decide_eq_true_eq]
      split_ifs <;> simp only [beq_eq_false_iff_ne, ne_eq] <;> omega
    simp only [decodeStep, List.cons_append, List.nil_append, hb]
    simp (disch := omega) only [hx, hz, hw, isContinuation, Bool.and_eq_false_iff,
      Bool.not_eq_true', decide_eq_false_iff_not, Bool.false_eq_true, if_false, if_pos, if_neg,
      Nat.shiftLeft_eq, Nat.reducePow, List.length_cons, List.length_nil]
    exact Prod.ext (congrArg some (ofNat_eq_of_toNat (by omega))) rfl

theorem decodeUtf8Ignore_utf8EncodeChar_append (c : Char) (rest : List UInt8) :
    decodeUtf8Ignore (String.utf8EncodeChar c ++ rest) = c :: decodeUtf8Ignore rest := by
  have hne : String.utf8EncodeChar c ≠ [] := by
    rw [← List.length_pos, String.length_utf8EncodeChar]
    exact c.utf8Size_pos
  obtain ⟨b, bs, h⟩ := List.exists_cons_of_ne_nil (List.append_ne_nil_of_left_ne_nil hne rest)
  rw [h, decodeUtf8Ignore_cons, ← h, decodeStep_utf8EncodeChar, List.drop_left]
  rfl

/-- **Decoding reads back every encoded text**, and then goes on with what follows it. -/
theorem decodeUtf8Ignore_encodeUtf8_append (s : List Char) (rest : List UInt8) :
    decodeUtf8Ignore (encodeUtf8 s ++ rest) = s ++ decodeUtf8Ignore rest := by
  induction s with
  | nil => rfl
  | cons c s ih =>
    rw [encodeUtf8_cons, List.append_assoc, decodeUtf8Ignore_utf8EncodeChar_append, ih,
      List.cons_append]

theorem decodeUtf8Ignore_nil : decodeUtf8Ignore [] = [] := rfl

/-- **`data.decode('utf-8', errors='ignore')` inverts `s.encode('utf-8')`**: what a peer
encodes, the scripts read back, whatever it holds. -/
theorem decodeUtf8Ignore_encodeUtf8 (s : List Char) : decodeUtf8Ignore (encodeUtf8 s) = s := by
  simpa [decodeUtf8Ignore_nil] using decodeUtf8Ignore_encodeUtf8_append s []

/-! ### What the handler drops -/

/-- **The run**: the decoder cuts the data into the segments its turns consume, and writes
the characters of the segments it reads; every segment is one character's encoding, or bytes
from `0x80` up that it skips. -/
theorem decodeUtf8Ignore_segments (bs : List UInt8) :
    ∃ segs : List (List UInt8 × Option Char), (∀ p ∈ segs, Consumed p.1 p.2) ∧
      bs = (segs.map Prod.fst).flatten ∧ decodeUtf8Ignore bs = segs.filterMap Prod.snd :=
  match bs with
  | [] => ⟨[], by simp, rfl, rfl⟩
  | b :: bs =>
    have hk := (decodeStep_spec b bs).1
    have := (b :: bs).length_drop (decodeStep (b :: bs)).2
    let ⟨segs, hc, he, hd⟩ :=
      decodeUtf8Ignore_segments ((b :: bs).drop (decodeStep (b :: bs)).2)
    ⟨((b :: bs).take (decodeStep (b :: bs)).2, (decodeStep (b :: bs)).1) :: segs,
      List.forall_mem_cons.mpr ⟨(decodeStep_spec b bs).2.2, hc⟩,
      by rw [List.map_cons, List.flatten_cons, ← he, List.take_append_drop],
      by rw [decodeUtf8Ignore_cons, hd]; cases (decodeStep (b :: bs)).1 <;> rfl⟩
termination_by bs.length

section Segments

variable {segs : List (List UInt8 × Option Char)}

private theorem encodeUtf8_filterMap_sublist (hc : ∀ p ∈ segs, Consumed p.1 p.2) :
    List.Sublist (encodeUtf8 (segs.filterMap Prod.snd)) (segs.map Prod.fst).flatten := by
  induction segs with
  | nil => exact List.nil_sublist _
  | cons p segs ih =>
    obtain ⟨used, o⟩ := p
    rw [List.forall_mem_cons] at hc
    rw [List.map_cons, List.flatten_cons]
    cases o with
    | none => exact (ih hc.2).trans (List.sublist_append_right _ _)
    | some c =>
      have hu : String.utf8EncodeChar c = used := hc.1
      simpa [hu] using (ih hc.2).append_left used

private theorem filter_filterMap (hc : ∀ p ∈ segs, Consumed p.1 p.2) :
    (segs.filterMap Prod.snd).filter (fun c => c.toNat < 128) =
      decodeLatin1 ((segs.map Prod.fst).flatten.filter fun b => b.toNat < 128) := by
  induction segs with
  | nil => rfl
  | cons p segs ih =>
    obtain ⟨used, o⟩ := p
    rw [List.forall_mem_cons] at hc
    rw [List.map_cons, List.flatten_cons, List.filter_append, decodeLatin1_append, ← ih hc.2]
    cases o with
    | none =>
      have : used.filter (fun b => b.toNat < 128) = [] :=
        List.filter_eq_nil_iff.mpr fun x hx => by simpa using hc.1 x hx
      simp [this, decodeLatin1]
    | some c =>
      have hu : String.utf8EncodeChar c = used := hc.1
      subst hu
      by_cases h : c.toNat < 128
      · have hb : c.val.toUInt8.toNat = c.toNat := by
          rw [toNat_toUInt8]
          exact Nat.mod_eq_of_lt (by simp only [Char.toNat] at h ⊢; omega)
        simp [utf8EncodeChar_ascii h, List.filter_cons, hb, h, decodeLatin1]
      · have : (String.utf8EncodeChar c).filter (fun b => b.toNat < 128) = [] :=
          List.filter_eq_nil_iff.mpr fun x hx => by
            simpa using le_toNat_of_mem_utf8EncodeChar (by omega) hx
        simp [this, List.filter_cons, h, decodeLatin1]

end Segments

/-- **The handler only deletes bytes**: encoding what it decodes gives a sublist of the data,
its bytes in their order. -/
theorem encodeUtf8_decodeUtf8Ignore_sublist (bs : List UInt8) :
    List.Sublist (encodeUtf8 (decodeUtf8Ignore bs)) bs := by
  obtain ⟨segs, hc, rfl, hd⟩ := decodeUtf8Ignore_segments bs
  rw [hd]
  exact encodeUtf8_filterMap_sublist hc

/-- **No ASCII byte is dropped**: the ASCII characters of the text are the ASCII bytes of the
data, in order. The delimiters of a bencode answer, its digits, and a cookie of ASCII survive
whatever invalid bytes surround them. -/
theorem filter_decodeUtf8Ignore (bs : List UInt8) :
    (decodeUtf8Ignore bs).filter (fun c => c.toNat < 128) =
      decodeLatin1 (bs.filter fun b => b.toNat < 128) := by
  obtain ⟨segs, hc, rfl, hd⟩ := decodeUtf8Ignore_segments bs
  rw [hd]
  exact filter_filterMap hc

/-- **What `decode('utf-8', errors='ignore')` does with bytes**: it reads back every text
`encode('utf-8')` writes, and on any datagram it only deletes bytes, never an ASCII one. -/
theorem decodeUtf8Ignore_spec (s : List Char) (bs : List UInt8) :
    decodeUtf8Ignore (encodeUtf8 s) = s ∧
      List.Sublist (encodeUtf8 (decodeUtf8Ignore bs)) bs ∧
      (decodeUtf8Ignore bs).filter (fun c => c.toNat < 128) =
        decodeLatin1 (bs.filter fun b => b.toNat < 128) :=
  ⟨decodeUtf8Ignore_encodeUtf8 s, encodeUtf8_decodeUtf8Ignore_sublist bs,
    filter_decodeUtf8Ignore bs⟩

end NgBencode
