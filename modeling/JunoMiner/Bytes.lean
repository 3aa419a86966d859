import Mathlib.Data.List.Basic
import Mathlib.Data.String.Basic
import Mathlib.Tactic.Ring

/-!
# Byte strings and the word helpers of `utils.cpp`

A `std::vector<uint8_t>` is a list of `UInt8`, and so is a `std::string` that the code reads byte
by byte. `read_le32`, `write_le32`, the compact-target decoder and the hash comparator are
written as `utils.cpp` computes them, with shifts and masks on the natural number behind each
fixed-width word.
-/

namespace JunoMiner

/-- A `std::vector<uint8_t>`, or a `std::string` taken byte by byte. -/
abbrev Bytes := List UInt8

/-- The bytes of an ASCII text. -/
def ascii (text : String) : Bytes := text.toList.map fun c => UInt8.ofNat c.toNat

@[simp]
theorem uint8_toNat_ofNat (value : Nat) : (UInt8.ofNat value).toNat = value % 256 := rfl

@[simp]
theorem uint64_toNat_ofNat (value : Nat) : (UInt64.ofNat value).toNat = value % 2 ^ 64 := rfl

@[simp]
theorem uint32_toNat_ofNat (value : Nat) : (UInt32.ofNat value).toNat = value % 2 ^ 32 := rfl

/-- `std::copy(src.begin(), src.end(), dst.begin() + offset)`, for a source that fits. -/
def copyAt (dst : Bytes) (offset : Nat) (src : Bytes) : Bytes :=
  dst.take offset ++ src ++ dst.drop (offset + src.length)

/-- Copying over a block of the same length replaces exactly that block. -/
theorem copyAt_block {front old new back : Bytes} (front_length : front.length = offset)
    (same_length : old.length = new.length) :
    copyAt (front ++ old ++ back) offset new = front ++ new ++ back := by
  subst front_length
  simp [copyAt, List.append_assoc, same_length, List.drop_append_eq_append_drop]

/-- A 108-byte prefix and a 32-byte nonce copied into a zeroed 140-byte buffer. -/
theorem copyAt_zeros_front {front : Bytes} (front_length : front.length = 108) :
    copyAt (List.replicate 140 0) 0 front = front ++ List.replicate 32 0 := by
  simp [copyAt, front_length]

theorem copyAt_after_front {front old nonce : Bytes} (front_length : front.length = 108)
    (same_length : old.length = nonce.length) :
    copyAt (front ++ old) 108 nonce = front ++ nonce := by
  rw [← List.append_nil (front ++ old), copyAt_block front_length same_length, List.append_nil]

theorem copyAt_prefix_nonce {front nonce : Bytes} (front_length : front.length = 108)
    (nonce_length : nonce.length = 32) :
    copyAt (copyAt (List.replicate 140 0) 0 front) 108 nonce = front ++ nonce := by
  rw [copyAt_zeros_front front_length, copyAt_after_front front_length (by simp [nonce_length])]

/-- `utils::read_le32`: bytes `offset .. offset + 3` of `data` as a little-endian word. -/
def readLe32 (data : Bytes) (offset : Nat) : UInt32 :=
  let byte := fun k => (data.getD (offset + k) 0).toNat
  UInt32.ofNat (byte 0 ||| byte 1 <<< 8 ||| byte 2 <<< 16 ||| byte 3 <<< 24)

/-- The `count` low bytes of `value`, least significant first: byte `i` is
`(value >> 8 * i) & 0xff`, as `write_le32`, `write_le64` and `encode_varint` spell them out. -/
def leBytes : Nat → Nat → Bytes
  | 0, _ => []
  | count + 1, value => UInt8.ofNat (value &&& 0xff) :: leBytes count (value >>> 8)

/-- The number a little-endian byte string spells. -/
def leValue : Bytes → Nat
  | [] => 0
  | byte :: rest => byte.toNat + 256 * leValue rest

@[simp]
theorem leBytes_length (count value : Nat) : (leBytes count value).length = count := by
  induction count generalizing value with
  | zero => rfl
  | succ count induction => simp [leBytes, induction]

@[simp]
theorem leValue_append (front back : Bytes) :
    leValue (front ++ back) = leValue front + 256 ^ front.length * leValue back := by
  induction front with
  | nil => simp [leValue]
  | cons byte front induction =>
      rw [List.cons_append, leValue, leValue, induction, List.length_cons, Nat.pow_succ]
      ring

theorem and_0xff (value : Nat) : value &&& 0xff = value % 256 :=
  Nat.and_pow_two_sub_one_eq_mod value 8

/-- A byte string is below `256 ^ length`. -/
theorem leValue_lt (data : Bytes) : leValue data < 256 ^ data.length := by
  induction data with
  | nil => simp [leValue]
  | cons byte data induction =>
    have := byte.toNat_lt
    rw [leValue, List.length_cons, Nat.pow_succ]
    omega

@[simp]
theorem leValue_replicate_zero (count : Nat) : leValue (List.replicate count 0) = 0 := by
  induction count with
  | zero => rfl
  | succ count induction => simp [List.replicate_succ, leValue, induction]

/-- Byte `count` of `value` comes after its first `count` bytes. -/
theorem leBytes_succ (count value : Nat) :
    leBytes (count + 1) value =
      leBytes count value ++ [UInt8.ofNat ((value >>> (count * 8)) &&& 0xff)] := by
  induction count generalizing value with
  | zero => rfl
  | succ count induction =>
    rw [leBytes, induction, leBytes, Nat.succ_mul, Nat.add_comm _ 8, Nat.shiftRight_add]
    rfl

/-- Reading back the bytes of `value` gives `value` modulo the width. -/
theorem leValue_leBytes (count value : Nat) :
    leValue (leBytes count value) = value % 256 ^ count := by
  induction count generalizing value with
  | zero => simp [leBytes, leValue, Nat.mod_one]
  | succ count induction =>
      simp only [leBytes, leValue, induction, uint8_toNat_ofNat, and_0xff, Nat.mod_mod,
        Nat.shiftRight_eq_div_pow, Nat.pow_succ, Nat.mul_comm _ 256]
      rw [Nat.mod_mul]

/-- An `|` of a number below `2 ^ width` with a number shifted past it is their sum. -/
theorem or_shiftLeft_eq_add {low : Nat} (high : Nat) {width : Nat} (small : low < 2 ^ width) :
    low ||| high <<< width = low + 2 ^ width * high := by
  rw [Nat.or_comm, Nat.shiftLeft_eq, Nat.mul_comm, ← Nat.mul_add_lt_is_or small, Nat.add_comm]

/-- `read_le32` is the little-endian value of the four bytes at `offset`, missing ones read as
zero. -/
theorem readLe32_toNat (data : Bytes) (offset : Nat) :
    (readLe32 data offset).toNat = leValue ((data.drop offset).take 4) := by
  have window (k : Nat) : data.getD (offset + k) 0 = (data.drop offset).getD k 0 := by
    simp [List.getD_eq_getElem?_getD, List.getElem?_drop]
  simp only [readLe32, window]
  generalize data.drop offset = bytes
  have word (b0 b1 b2 b3 : UInt8) : (UInt32.ofNat (b0.toNat ||| b1.toNat <<< 8 |||
      b2.toNat <<< 16 ||| b3.toNat <<< 24)).toNat =
      b0.toNat + 256 * (b1.toNat + 256 * (b2.toNat + 256 * b3.toNat)) := by
    have := b0.toNat_lt; have := b1.toNat_lt; have := b2.toNat_lt; have := b3.toNat_lt
    simp (disch := omega) only [or_shiftLeft_eq_add, uint32_toNat_ofNat]
    omega
  rcases bytes with _ | ⟨b0, _ | ⟨b1, _ | ⟨b2, _ | ⟨b3, rest⟩⟩⟩⟩ <;>
    simp only [List.getD_cons_zero, List.getD_cons_succ, List.getD_nil, word] <;> simp [leValue]

/-- `utils::write_le32`: the four bytes of `value`, least significant first. -/
def le32 (value : UInt32) : Bytes := leBytes 4 value.toNat

@[simp]
theorem le32_length (value : UInt32) : (le32 value).length = 4 := rfl

/-- `utils::write_le32(&buf[offset], value)`. -/
def writeLe32 (buf : Bytes) (offset : Nat) (value : UInt32) : Bytes :=
  copyAt buf offset (le32 value)

/-- `utils::hash_meets_target`: words 7 down to 0, the first unequal pair decides. -/
def hashMeetsTarget (hash target : Bytes) : Bool :=
  scan 8
where
  /-- The loop over the words below `word`. -/
  scan : Nat → Bool
    | 0 => true
    | word + 1 =>
      let hashWord := readLe32 hash (word * 4)
      let targetWord := readLe32 target (word * 4)
      if hashWord < targetWord then true
      else if hashWord > targetWord then false
      else scan word

/-- `utils::compact_to_target`: exponent `bits >> 24`, mantissa `bits & 0x7fffff`. -/
def compactToTarget (compactBits : UInt32) : Bytes :=
  let size := compactBits.toNat >>> 24
  let word := compactBits.toNat &&& 0x007fffff
  let zeros := List.replicate 32 (0 : UInt8)
  if size ≤ 3 then
    let word := word >>> (8 * (3 - size))
    (List.range (min 3 size)).foldl
      (fun target i => target.set i (UInt8.ofNat ((word >>> (i * 8)) &&& 0xff))) zeros
  else if size ≤ 32 then
    let pos := size - 3
    ((zeros.set pos (UInt8.ofNat (word &&& 0xff))).set (pos + 1)
      (UInt8.ofNat ((word >>> 8) &&& 0xff))).set (pos + 2) (UInt8.ofNat ((word >>> 16) &&& 0xff))
  else
    zeros

end JunoMiner
