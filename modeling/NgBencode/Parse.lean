import NgBencode.Int

/-!
# `parse_bencode`

`validate-bencode-structure.py` checks the payloads the scripts send by parsing them with
`parse_bencode`. Its inner `parse_value` reads one value from a position shared through
`nonlocal pos`, and calls itself for the keys and values of a dictionary and the items of a
list; `parse_bencode` calls it once, checks that nothing is left, and turns any exception into
the text `"Parse error: ..."`.

Here the shared position is passed in and returned. The recursion of `parse_value` and the two
`while` loops become three functions, `parseValue`, `parseDict` and `parseList`, structurally
recursive on a fuel argument that every call spends one unit of: fuel is scaffolding, and
`NgBencode.Soundness` shows that what `parse_bencode` gives, `fuelFor data`, never runs out.
The integer and string branches do not recurse, and are `parseInteger` and `parseString`.

Two limits of Python are left out of the model. `parse_value` takes one frame of the
interpreter for each level of nesting, and Python raises `RecursionError`, which
`parse_bencode` returns as a parse error, once the frames pass `sys.getrecursionlimit()`; and
`int` refuses a numeral of more than 4300 digits. The model reads a word however deep it nests
and however long its numerals are, so what it is proved to accept is stated for the words
within both limits (`DeriveWithin`, `Numerals.limited`).
-/

namespace NgBencode

variable (u : UnicodeDb)

/-- The integer branch of `parse_value`, from `pos` just after the `i`: the numeral runs to the
first `e`. -/
def parseInteger (data : List Char) (pos : Nat) : Outcome (PyVal × Nat) :=
  match find data 'e' pos with
  | none => .raise "Unterminated integer"
  | some endIdx => do
    let result ← int u (slice data pos endIdx)
    .ok (.int result, endIdx + 1)

/-- The string branch of `parse_value`, from `pos` at its first digit: the length runs to the
first `:`, and that many characters follow it. The length is not negative
(`int_nonneg_of_isdigit`), so reading it as a natural number changes nothing. -/
def parseString (data : List Char) (pos : Nat) : Outcome (PyVal × Nat) :=
  match find data ':' pos with
  | none => .raise "Invalid string format"
  | some colon => do
    let length ← int u (slice data pos colon)
    if ((colon + 1 : Nat) : Int) + length > data.length then .raise "String length exceeds data"
    else .ok (.str (slice data (colon + 1) (colon + 1 + length.toNat)), colon + 1 + length.toNat)

mutual

/-- `parse_value`: one value read from `pos`, and the position after it. Python's recursion
limit, which stops the nested calls, is not modelled (see the module docstring). -/
def parseValue : Nat → List Char → Nat → Outcome (PyVal × Nat)
  | 0, _, _ => .outOfFuel
  | fuel + 1, data, pos =>
    match data[pos]? with
    | none => .raise "Unexpected end of data"
    | some char =>
      if char = 'd' then parseDict fuel data (pos + 1) []
      else if char = 'l' then parseList fuel data (pos + 1) []
      else if char = 'i' then parseInteger u data (pos + 1)
      else if isdigit u char then parseString u data pos
      else .raise ("Unknown bencode type: " ++ String.mk [char])
termination_by structural fuel => fuel

/-- The `while` loop of the dictionary branch, from `pos` with the entries `result` read so
far, and its closing `e`. -/
def parseDict : Nat → List Char → Nat → Dict → Outcome (PyVal × Nat)
  | 0, _, _, _ => .outOfFuel
  | fuel + 1, data, pos, result =>
    match data[pos]? with
    | none => .raise "Unterminated dictionary"
    | some char =>
      if char = 'e' then .ok (.dict result, pos + 1)
      else do
        let (key, pos) ← parseValue fuel data pos
        match key with
        | .str key => do
          let (value, pos) ← parseValue fuel data pos
          parseDict fuel data pos (Dict.setItem result key value)
        | _ => .raise "Dictionary keys must be strings"
termination_by structural fuel => fuel

/-- The `while` loop of the list branch, from `pos` with the items `result` read so far, and
its closing `e`. -/
def parseList : Nat → List Char → Nat → List PyVal → Outcome (PyVal × Nat)
  | 0, _, _, _ => .outOfFuel
  | fuel + 1, data, pos, result =>
    match data[pos]? with
    | none => .raise "Unterminated list"
    | some char =>
      if char = 'e' then .ok (.list result, pos + 1)
      else do
        let (item, pos) ← parseValue fuel data pos
        parseList fuel data pos (result ++ [item])
termination_by structural fuel => fuel

end

/-- The fuel `parse_bencode` gives `parse_value`: two units a character and one more, enough
for every text (`parse_fuel_enough`). -/
def fuelFor (data : List Char) : Nat :=
  2 * data.length + 1

/-- The body of `parse_bencode`'s `try`: one value from position 0, and nothing after it. -/
def innerParse (data : List Char) : Outcome PyVal := do
  let (result, pos) ← parseValue u (fuelFor data) data 0
  if pos ≠ data.length then .raise ("Extra data after parsing: " ++ String.mk (data.drop pos))
  else .ok result

/-- `parse_bencode`: the value read, or the text `"Parse error: ..."` for the exception
caught. It is `none` only where the fuel would run out, which it never does
(`parseBencode_terminates`). -/
def parseBencode (data : List Char) : Option PyVal :=
  match innerParse u data with
  | .ok v => some v
  | .raise msg => some (.str ("Parse error: " ++ msg).toList)
  | .outOfFuel => none

end NgBencode
