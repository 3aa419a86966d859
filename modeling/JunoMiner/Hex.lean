import JunoMiner.Bytes
import Mathlib.Tactic.IntervalCases

/-!
# Hex strings: `bytes_to_hex`, `hex_to_bytes` and the `std::stoi` family

`hex_to_bytes` decodes each two-character substring with `std::stoi(byte_str, nullptr, 16)`, and
the template parser reads `bits` with `std::stoul(…, nullptr, 16)`. Both go through glibc's
`strtol` scan, which is lenient: it skips white space, takes a sign and an optional `0x`, and
stops at the first byte that is not a hex digit. The scan is modelled here byte for byte, with the
two exceptions the wrappers raise.
-/

namespace JunoMiner

/-- The exceptions that can leave the code modelled here. -/
inductive CppException where
  /-- `std::runtime_error`, the parser's `TemplateError`. -/
  | runtimeError (what : String)
  /-- `std::invalid_argument`: `std::stoi`/`std::stoul` converted nothing. -/
  | invalidArgument (what : String)
  /-- `std::out_of_range`: `std::stoi`/`std::stoul` got a value outside its type. -/
  | outOfRange (what : String)
  /-- `Json::LogicError`: a JsonCpp accessor applied to a value of the wrong type. -/
  | jsonLogicError (what : String)
  /-- `Json::RuntimeError`: JsonCpp's reader gave up on its input. -/
  | jsonRuntimeError (what : String)
  deriving DecidableEq, Repr

/-- `isspace` in the C locale. -/
def isSpace (byte : UInt8) : Bool :=
  byte = 32 || (9 ≤ byte && byte ≤ 13)

/-- The value of a hex digit, any case. -/
def hexDigitValue? (byte : UInt8) : Option Nat :=
  if 48 ≤ byte ∧ byte ≤ 57 then some (byte.toNat - 48)
  else if 97 ≤ byte ∧ byte ≤ 102 then some (byte.toNat - 87)
  else if 65 ≤ byte ∧ byte ≤ 70 then some (byte.toNat - 55)
  else none

/-- `isxdigit` in the C locale. -/
def isHexDigit (byte : UInt8) : Bool := (hexDigitValue? byte).isSome

/-- The number a run of hex digits spells, most significant first. -/
def hexValue (digits : Bytes) : Nat :=
  digits.foldl (fun value digit => 16 * value + (hexDigitValue? digit).getD 0) 0

/-- The optional sign `strtol` reads: whether it was `-`, and the rest. -/
def takeSign : Bytes → Bool × Bytes
  | [] => (false, [])
  | byte :: rest => if byte = 45 then (true, rest) else if byte = 43 then (false, rest)
      else (false, byte :: rest)

/-- glibc's `strtol`/`strtoul` scan in base 16 on the C string of `text`: the sign and the
magnitude converted, or `none` when nothing was (a `0x` with no digit after it converts its `0`). -/
def scanBase16 (text : Bytes) : Option (Bool × Nat) :=
  let (negative, body) := takeSign ((text.takeWhile (· ≠ 0)).dropWhile isSpace)
  let digitsFrom := if body.take 2 = [48, 120] ∨ body.take 2 = [48, 88] then body.drop 2 else body
  let digits := digitsFrom.takeWhile isHexDigit
  if digits = [] then
    if digitsFrom = body then none else some (negative, 0)
  else
    some (negative, hexValue digits)

/-- `std::stoi(text, nullptr, 16)`. -/
def stoi16 (text : Bytes) : Except CppException Int :=
  match scanBase16 text with
  | none => throw (.invalidArgument "stoi")
  | some (negative, magnitude) =>
    let value : Int := if negative then -magnitude else magnitude
    if value < -2 ^ 31 ∨ 2 ^ 31 - 1 < value then throw (.outOfRange "stoi") else pure value

/-- `std::stoul(text, nullptr, 16)`: `strtoul` negates a `-` input modulo `2^64`. -/
def stoul16 (text : Bytes) : Except CppException Nat :=
  match scanBase16 text with
  | none => throw (.invalidArgument "stoul")
  | some (negative, magnitude) =>
    if 2 ^ 64 ≤ magnitude then throw (.outOfRange "stoul")
    else pure (if negative then (2 ^ 64 - magnitude) % 2 ^ 64 else magnitude)

/-- `static_cast<uint8_t>` of an `int`. -/
def byteOfInt (value : Int) : UInt8 := UInt8.ofNat (value % 256).toNat

/-- `utils::hex_to_bytes`: `std::stoi` on each substring `hex.substr(i, 2)`, `i = 0, 2, …`. -/
def hexToBytes : Bytes → Except CppException Bytes
  | [] => pure []
  | [last] => do
    let value ← stoi16 [last]
    pure [byteOfInt value]
  | high :: low :: rest => do
    let value ← stoi16 [high, low]
    let tail ← hexToBytes rest
    pure (byteOfInt value :: tail)

/-- The lowercase digit `std::hex` prints for `value < 16`. -/
def hexDigitChar (value : Nat) : UInt8 :=
  if value < 10 then UInt8.ofNat (48 + value) else UInt8.ofNat (87 + value)

/-- `utils::bytes_to_hex`: two lowercase digits per byte, zero-padded (`setw(2)`,
`setfill('0')`). -/
def bytesToHex (data : Bytes) : Bytes :=
  data.flatMap fun byte => [hexDigitChar (byte.toNat / 16), hexDigitChar (byte.toNat % 16)]

@[simp]
theorem bytesToHex_cons (byte : UInt8) (data : Bytes) :
    bytesToHex (byte :: data) =
      hexDigitChar (byte.toNat / 16) :: hexDigitChar (byte.toNat % 16) :: bytesToHex data := rfl

@[simp]
theorem bytesToHex_length (data : Bytes) : (bytesToHex data).length = 2 * data.length := by
  induction data with
  | nil => rfl
  | cons byte data induction => simp [induction]; omega

/-! ## Hex digits -/

/-- C's `tolower` in the C locale. -/
def toLower (byte : UInt8) : UInt8 := if 65 ≤ byte ∧ byte ≤ 90 then byte + 32 else byte

/-- A text with every letter in lowercase. -/
def lowercase (text : Bytes) : Bytes := text.map toLower

@[simp]
theorem lowercase_length (text : Bytes) : (lowercase text).length = text.length :=
  List.length_map _ _

theorem uint8_le_iff (a b : UInt8) : a ≤ b ↔ a.toNat ≤ b.toNat := Iff.rfl

/-- A hex digit is none of the bytes `strtol` treats apart (the end of the C string, white space,
a sign, the `x` of `0x`), and `std::hex` prints its value as the digit in lowercase. -/
theorem hexDigitValue?_facts {byte : UInt8} {digit : Nat}
    (value : hexDigitValue? byte = some digit) :
    digit < 16 ∧ hexDigitChar digit = toLower byte ∧ byte ≠ 0 ∧ isSpace byte = false ∧
      byte ≠ 45 ∧ byte ≠ 43 ∧ byte ≠ 120 ∧ byte ≠ 88 := by
  have small := byte.toNat_lt
  have ne (other : UInt8) : byte ≠ other ↔ byte.toNat ≠ other.toNat :=
    ⟨fun differ same => differ (UInt8.ext same), fun differ same => differ (congrArg _ same)⟩
  unfold hexDigitValue? at value
  simp only [uint8_le_iff] at value
  split_ifs at value <;> cases value
  all_goals
    simp only [toLower, hexDigitChar, isSpace, uint8_le_iff, ne, UInt8.ext_iff, UInt8.toNat_add,
      uint8_toNat_ofNat, UInt8.reduceToNat] at *
    split_ifs <;> simp [UInt8.toNat_add, UInt8.size] <;> omega

theorem hexDigitValue?_hexDigitChar {value : Nat} (small : value < 16) :
    hexDigitValue? (hexDigitChar value) = some value := by
  interval_cases value <;> rfl

/-- Two hex digits, of either case, scan as the byte they spell. -/
theorem scanBase16_hex_pair {high low : UInt8} {highDigit lowDigit : Nat}
    (high_value : hexDigitValue? high = some highDigit)
    (low_value : hexDigitValue? low = some lowDigit) :
    scanBase16 [high, low] = some (false, 16 * highDigit + lowDigit) := by
  obtain ⟨-, -, high_nonzero, high_space, high_minus, high_plus, -, -⟩ :=
    hexDigitValue?_facts high_value
  obtain ⟨-, -, low_nonzero, low_space, -, -, low_x, low_X⟩ := hexDigitValue?_facts low_value
  simp [scanBase16, takeSign, isHexDigit, hexValue, high_value, high_nonzero, high_space,
    high_minus, high_plus, low_value, low_nonzero, low_space, low_x, low_X]

theorem stoi16_hex_pair {high low : UInt8} {highDigit lowDigit : Nat}
    (high_value : hexDigitValue? high = some highDigit)
    (low_value : hexDigitValue? low = some lowDigit) :
    stoi16 [high, low] = .ok ((16 * highDigit + lowDigit : Nat) : Int) := by
  have := (hexDigitValue?_facts high_value).1
  have := (hexDigitValue?_facts low_value).1
  rw [stoi16, scanBase16_hex_pair high_value low_value]
  simp only [Bool.false_eq_true, if_false]
  rw [if_neg (by omega)]
  rfl

theorem byteOfInt_natCast (value : Nat) : (byteOfInt value).toNat = value % 256 := by
  rw [byteOfInt, uint8_toNat_ofNat]
  omega

/-! ## Numbers in hex text -/

/-- The loop of `hexValue` from any start value. -/
theorem hexValue_lt_aux (digits : Bytes) (all : digits.all isHexDigit = true) (value : Nat) :
    digits.foldl (fun value digit => 16 * value + (hexDigitValue? digit).getD 0) value <
      (value + 1) * 16 ^ digits.length := by
  induction digits generalizing value with
  | nil => simp
  | cons digit rest induction =>
    simp only [List.all_cons, Bool.and_eq_true, isHexDigit, Option.isSome_iff_exists] at all
    obtain ⟨⟨d, found⟩, rest_all⟩ := all
    have small := (hexDigitValue?_facts found).1
    rw [List.foldl_cons, List.length_cons, found, Option.getD_some]
    calc _ < (16 * value + d + 1) * 16 ^ rest.length := induction rest_all _
      _ ≤ (value + 1) * 16 * 16 ^ rest.length := Nat.mul_le_mul_right _ (by omega)
      _ = (value + 1) * 16 ^ (rest.length + 1) := by
        rw [Nat.pow_succ, Nat.mul_assoc, Nat.mul_comm 16]

/-- A run of hex digits spells a number below `16 ^ length`. -/
theorem hexValue_lt {digits : Bytes} (all : digits.all isHexDigit = true) :
    hexValue digits < 16 ^ digits.length := by
  simpa using hexValue_lt_aux digits all 0

/-- A nonempty text of hex digits scans whole, as an unsigned number. -/
theorem scanBase16_hexText {text : Bytes} (nonempty : text ≠ [])
    (all : text.all isHexDigit = true) : scanBase16 text = some (false, hexValue text) := by
  have facts (byte : UInt8) (inside : byte ∈ text) : byte ≠ 0 ∧ isSpace byte = false ∧
      byte ≠ 45 ∧ byte ≠ 43 ∧ byte ≠ 120 ∧ byte ≠ 88 := by
    have digit := List.all_eq_true.mp all byte inside
    simp only [isHexDigit, Option.isSome_iff_exists] at digit
    obtain ⟨_, found⟩ := digit
    exact (hexDigitValue?_facts found).2.2
  have whole : text.takeWhile (· ≠ 0) = text :=
    List.takeWhile_eq_self_iff.mpr fun byte inside => by simpa using (facts byte inside).1
  have digits : text.takeWhile isHexDigit = text :=
    List.takeWhile_eq_self_iff.mpr fun byte inside => List.all_eq_true.mp all byte inside
  obtain ⟨first, rest, rfl⟩ := List.exists_cons_of_ne_nil nonempty
  obtain ⟨-, space, minus, plus, -, -⟩ := facts first (List.mem_cons_self _ _)
  have unprefixed : ¬((first :: rest).take 2 = [48, 120] ∨ (first :: rest).take 2 = [48, 88]) := by
    rcases rest with _ | ⟨second, rest⟩
    · simp
    · obtain ⟨-, -, -, -, x, X⟩ := facts second (by simp)
      simp [x, X]
  have signed : takeSign (first :: rest) = (false, first :: rest) := by
    simp [takeSign, minus, plus]
  have kept : (first :: rest).dropWhile isSpace = first :: rest := by
    simp [List.dropWhile_cons, space]
  simp only [scanBase16, whole, kept, signed, unprefixed, if_false, digits]
  rfl

/-- `std::stoul` reads a text of one to sixteen hex digits as the number it spells. -/
theorem stoul16_hexText {text : Bytes} (nonempty : text ≠ []) (all : text.all isHexDigit = true)
    (fits : text.length ≤ 16) : stoul16 text = .ok (hexValue text) := by
  have bound : hexValue text < 2 ^ 64 :=
    calc hexValue text < 16 ^ text.length := hexValue_lt all
      _ ≤ 16 ^ 16 := Nat.pow_le_pow_right (by norm_num) fits
      _ = 2 ^ 64 := by norm_num
  rw [stoul16, scanBase16_hexText nonempty all]
  simp only [Bool.false_eq_true, if_false]
  rw [if_neg (by omega)]
  rfl

/-! ## Decoding what `bytes_to_hex` printed -/

theorem stoi16_byte_digits (byte : UInt8) :
    stoi16 [hexDigitChar (byte.toNat / 16), hexDigitChar (byte.toNat % 16)] =
      .ok (byte.toNat : Int) := by
  have byte_small := byte.toNat_lt
  rw [stoi16_hex_pair (hexDigitValue?_hexDigitChar (by omega))
    (hexDigitValue?_hexDigitChar (Nat.mod_lt _ (by omega)))]
  congr
  omega

theorem byteOfInt_toNat (byte : UInt8) : byteOfInt (byte.toNat : Int) = byte :=
  UInt8.ext ((byteOfInt_natCast _).trans (Nat.mod_eq_of_lt byte.toNat_lt))

/-- `hex_to_bytes` reads back every byte string `bytes_to_hex` prints. -/
theorem hexToBytes_bytesToHex (data : Bytes) : hexToBytes (bytesToHex data) = .ok data := by
  induction data with
  | nil => rfl
  | cons byte data induction =>
      rw [bytesToHex_cons, hexToBytes, stoi16_byte_digits, induction]
      simp only [bind, Except.bind, pure, Except.pure, byteOfInt_toNat]

/-! ## Decoding hex text -/

/-- Hex text of even length decodes, and prints back in lowercase. -/
theorem hexToBytes_hexText (text : Bytes) (even : text.length % 2 = 0)
    (digits : text.all isHexDigit = true) :
    ∃ bytes, hexToBytes text = .ok bytes ∧ bytesToHex bytes = lowercase text := by
  induction text using hexToBytes.induct with
  | case1 => exact ⟨[], rfl, rfl⟩
  | case2 last => simp at even
  | case3 high low rest induction =>
    simp only [List.all_cons, Bool.and_eq_true, isHexDigit, Option.isSome_iff_exists] at digits
    obtain ⟨⟨highDigit, high_value⟩, ⟨lowDigit, low_value⟩, rest_digits⟩ := digits
    obtain ⟨bytes, decoded, printed⟩ :=
      induction (by simp at even; omega) (by simpa [isHexDigit] using rest_digits)
    obtain ⟨high_small, high_lower, -⟩ := hexDigitValue?_facts high_value
    obtain ⟨low_small, low_lower, -⟩ := hexDigitValue?_facts low_value
    refine ⟨byteOfInt (16 * highDigit + lowDigit : Nat) :: bytes, ?_, ?_⟩
    · simp [hexToBytes, stoi16_hex_pair high_value low_value, decoded, bind, Except.bind, pure,
        Except.pure]
    · rw [bytesToHex_cons, byteOfInt_natCast, printed,
        Nat.mod_eq_of_lt (by omega : 16 * highDigit + lowDigit < 256),
        show (16 * highDigit + lowDigit) / 16 = highDigit by omega,
        show (16 * highDigit + lowDigit) % 16 = lowDigit by omega, high_lower, low_lower]
      rfl

/-- `bytes_to_hex` and `hex_to_bytes` undo each other: on every byte string, and on every hex
text of even length, up to the case of its letters. -/
theorem hex_round_trip :
    (∀ data : Bytes, hexToBytes (bytesToHex data) = .ok data) ∧
    ∀ text : Bytes, text.length % 2 = 0 → text.all isHexDigit = true →
      (hexToBytes text).map bytesToHex = .ok (lowercase text) :=
  ⟨hexToBytes_bytesToHex, fun text even digits => by
    obtain ⟨bytes, decoded, printed⟩ := hexToBytes_hexText text even digits
    rw [decoded, ← printed]
    rfl⟩

theorem hex_round_trip_on_mixed_case :
    (ascii "0aFf").length % 2 = 0 ∧ (ascii "0aFf").all isHexDigit = true ∧
      (hexToBytes (ascii "0aFf")).map bytesToHex = .ok (lowercase (ascii "0aFf")) :=
  ⟨by decide, by decide, hex_round_trip.2 _ (by decide) (by decide)⟩

end JunoMiner
