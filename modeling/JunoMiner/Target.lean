import JunoMiner.Bytes

/-!
# The target: `hash_meets_target` and `compact_to_target`

A worker keeps a hash when `hash_meets_target` accepts it against the target that
`compact_to_target` decodes from the template's `bits`. Both stand for numbers: a 32-byte string
is the little-endian number `leValue`, which is `∑ i, h[i] * 256 ^ i`. The comparator's scan over
the eight words from the top decides `leValue hash ≤ leValue target`, and the decoder's bytes spell
the value Bitcoin's `arith_uint256::SetCompact` gives the compact word.
-/

namespace JunoMiner

/-! ## The comparator -/

/-- Two numbers with the same number of low digits compare by their high parts first. -/
theorem add_mul_le_add_mul_iff {low low' base high high' : Nat} (below : low < base)
    (below' : low' < base) :
    low + base * high ≤ low' + base * high' ↔ high < high' ∨ high = high' ∧ low ≤ low' := by
  rcases lt_trichotomy high high' with smaller | rfl | larger
  · have := Nat.mul_le_mul_left base smaller
    rw [Nat.mul_succ] at this
    exact iff_of_true (by omega) (.inl smaller)
  · simp
  · have := Nat.mul_le_mul_left base larger
    rw [Nat.mul_succ] at this
    exact iff_of_false (by omega) (by omega)

/-- The first `4 * (word + 1)` bytes are the first `4 * word` and word `word` above them. -/
theorem leValue_take_word (data : Bytes) {word : Nat} (inside : 4 * word ≤ data.length) :
    leValue (data.take (4 * (word + 1))) =
      leValue (data.take (4 * word)) + 256 ^ (4 * word) * (readLe32 data (word * 4)).toNat := by
  rw [Nat.mul_succ, List.take_add, leValue_append, readLe32_toNat, List.length_take,
    Nat.min_eq_left inside, Nat.mul_comm word]

/-- The scan over words `word - 1` down to `0` compares the first `4 * word` bytes as numbers. -/
theorem scan_iff {hash target : Bytes} {word : Nat} (hash_long : 4 * word ≤ hash.length)
    (target_long : 4 * word ≤ target.length) :
    hashMeetsTarget.scan hash target word = true ↔
      leValue (hash.take (4 * word)) ≤ leValue (target.take (4 * word)) := by
  induction word with
  | zero => simp [hashMeetsTarget.scan]
  | succ word induction =>
    have hashLow := leValue_lt (hash.take (4 * word))
    have targetLow := leValue_lt (target.take (4 * word))
    rw [List.length_take, Nat.min_eq_left (by omega)] at hashLow targetLow
    rw [leValue_take_word hash (by omega), leValue_take_word target (by omega),
      add_mul_le_add_mul_iff hashLow targetLow, hashMeetsTarget.scan,
      ← induction (by omega) (by omega)]
    have toNat_lt (a b : UInt32) : a < b ↔ a.toNat < b.toNat := Iff.rfl
    simp only [gt_iff_lt, toNat_lt]
    split_ifs with less more
    · simp [less]
    · simp only [Bool.false_eq_true, false_iff, not_or, not_and]
      omega
    · simp [Nat.le_antisymm (Nat.not_lt.mp more) (Nat.not_lt.mp less)]

/-- `hash_meets_target` decides the little-endian 256-bit `hash ≤ target`, equality included. -/
theorem hashMeetsTarget_iff_le {hash target : Bytes} (hash_length : hash.length = 32)
    (target_length : 32 ≤ target.length) :
    hashMeetsTarget hash target = true ↔ leValue hash ≤ leValue (target.take 32) := by
  have scanned := @scan_iff hash target 8 (by omega) (by omega)
  rwa [show 4 * 8 = 32 from rfl, List.take_of_length_le hash_length.le] at scanned

/-- The comparator's law at the all-zero hash and the target of block 1583's `bits`. -/
theorem hashMeetsTarget_iff_le_on_zero_hash :
    (List.replicate 32 (0 : UInt8)).length = 32 ∧ 32 ≤ (compactToTarget 0x1f09daa8).length ∧
      (hashMeetsTarget (List.replicate 32 0) (compactToTarget 0x1f09daa8) = true ↔
        leValue (List.replicate 32 0) ≤ leValue ((compactToTarget 0x1f09daa8).take 32)) :=
  ⟨rfl, by decide, hashMeetsTarget_iff_le rfl (by decide)⟩

/-! ## The compact decoder -/

/-- The loop of the small-exponent branch writes the low `count` bytes of `value`. -/
theorem foldl_set_bytes (value : Nat) {width count : Nat} (fits : count ≤ width) :
    (List.range count).foldl
        (fun target i => target.set i (UInt8.ofNat ((value >>> (i * 8)) &&& 0xff)))
        (List.replicate width 0) =
      leBytes count value ++ List.replicate (width - count) 0 := by
  induction count with
  | zero => rfl
  | succ count induction =>
    rw [List.range_succ, List.foldl_append, induction (by omega), List.foldl_cons, List.foldl_nil,
      List.set_append_right _ _ (by simp), leBytes_length, Nat.sub_self,
      show width - count = width - (count + 1) + 1 by omega, List.replicate_succ, leBytes_succ]
    simp

/-- The three writes of the large-exponent branch put the three bytes of `word` at `pos`. -/
theorem set_three_bytes (word : Nat) {pos : Nat} (fits : pos + 3 ≤ 32) :
    (((List.replicate 32 (0 : UInt8)).set pos (UInt8.ofNat (word &&& 0xff))).set (pos + 1)
        (UInt8.ofNat ((word >>> 8) &&& 0xff))).set (pos + 2)
        (UInt8.ofNat ((word >>> 16) &&& 0xff)) =
      List.replicate pos 0 ++ leBytes 3 word ++ List.replicate (29 - pos) 0 := by
  rw [show 32 = pos + (29 - pos + 3) by omega, List.replicate_add]
  rw [List.set_append_right, List.set_append_right, List.set_append_right]
  · simp [List.replicate_succ, leBytes, ← Nat.shiftRight_add]
  all_goals simp

theorem compactToTarget_small {compactBits : UInt32} (small : compactBits.toNat >>> 24 ≤ 3) :
    compactToTarget compactBits =
      leBytes (compactBits.toNat >>> 24)
          ((compactBits.toNat &&& 0x7fffff) >>> (8 * (3 - compactBits.toNat >>> 24))) ++
        List.replicate (32 - compactBits.toNat >>> 24) 0 := by
  rw [compactToTarget, if_pos small, Nat.min_eq_right small, foldl_set_bytes _ (by omega)]

theorem compactToTarget_large {compactBits : UInt32} (large : 3 < compactBits.toNat >>> 24)
    (fits : compactBits.toNat >>> 24 ≤ 32) :
    compactToTarget compactBits =
      List.replicate (compactBits.toNat >>> 24 - 3) (0 : UInt8) ++
        leBytes 3 (compactBits.toNat &&& 0x7fffff) ++
        List.replicate (32 - compactBits.toNat >>> 24) 0 := by
  rw [compactToTarget, if_neg (by omega), if_pos fits, set_three_bytes _ (by omega),
    show 29 - (compactBits.toNat >>> 24 - 3) = 32 - compactBits.toNat >>> 24 by omega]

@[simp]
theorem compactToTarget_length (compactBits : UInt32) :
    (compactToTarget compactBits).length = 32 := by
  by_cases small : compactBits.toNat >>> 24 ≤ 3
  · rw [compactToTarget_small small, List.length_append, leBytes_length, List.length_replicate]
    omega
  by_cases fits : compactBits.toNat >>> 24 ≤ 32
  · rw [compactToTarget_large (by omega) fits]
    simp only [List.length_append, leBytes_length, List.length_replicate]
    omega
  · rw [compactToTarget, if_neg small, if_neg fits, List.length_replicate]

/-- The value `arith_uint256::SetCompact` gives a compact word whose exponent `size` is at most
32, the sign bit dropped: the 23-bit mantissa shifted right by `8 * (3 - size)` bits when
`size ≤ 3`, and multiplied by `2 ^ (8 * (size - 3))` above. -/
def setCompactValue (compactBits : UInt32) : Nat :=
  let size := compactBits.toNat >>> 24
  let mantissa := compactBits.toNat &&& 0x7fffff
  if size ≤ 3 then mantissa >>> (8 * (3 - size)) else mantissa * 2 ^ (8 * (size - 3))

theorem leValue_compactToTarget {compactBits : UInt32} (fits : compactBits.toNat >>> 24 ≤ 32) :
    leValue (compactToTarget compactBits) = setCompactValue compactBits := by
  have mantissa : compactBits.toNat &&& 0x7fffff < 2 ^ 24 :=
    Nat.lt_of_le_of_lt Nat.and_le_right (by omega)
  have bytes (count : Nat) : (256 : Nat) ^ count = 2 ^ (8 * count) := by
    rw [Nat.pow_mul]
  by_cases small : compactBits.toNat >>> 24 ≤ 3
  · rw [compactToTarget_small small, setCompactValue, if_pos small, leValue_append,
      leValue_replicate_zero, Nat.mul_zero, Nat.add_zero, leValue_leBytes, Nat.mod_eq_of_lt]
    rw [Nat.shiftRight_eq_div_pow, Nat.div_lt_iff_lt_mul (Nat.two_pow_pos _), bytes,
      ← Nat.pow_add]
    rwa [show 8 * (compactBits.toNat >>> 24) + 8 * (3 - compactBits.toNat >>> 24) = 24 by omega]
  · rw [compactToTarget_large (by omega) fits, setCompactValue, if_neg small]
    simpa [leValue_leBytes, bytes, Nat.mul_comm] using mantissa

/-- For one exponent of at least 3, a larger mantissa gives a larger value. -/
theorem setCompactValue_lt {compactBits compactBits' : UInt32}
    (same : compactBits'.toNat >>> 24 = compactBits.toNat >>> 24)
    (large : 3 ≤ compactBits.toNat >>> 24)
    (larger : compactBits.toNat &&& 0x7fffff < compactBits'.toNat &&& 0x7fffff) :
    setCompactValue compactBits < setCompactValue compactBits' := by
  unfold setCompactValue
  dsimp only
  rw [same]
  split_ifs with small
  · rwa [show 3 - compactBits.toNat >>> 24 = 0 by omega]
  · exact Nat.mul_lt_mul_of_pos_right larger (Nat.two_pow_pos _)

/-- `compact_to_target` gives 32 bytes spelling `SetCompact`'s value, for every exponent up to
32; for one exponent of at least 3 the target grows strictly with the mantissa. -/
theorem compactToTarget_eq_setCompact :
    (∀ compactBits : UInt32, compactBits.toNat >>> 24 ≤ 32 →
      (compactToTarget compactBits).length = 32 ∧
        leValue (compactToTarget compactBits) = setCompactValue compactBits) ∧
    ∀ compactBits compactBits' : UInt32, compactBits'.toNat >>> 24 = compactBits.toNat >>> 24 →
      3 ≤ compactBits.toNat >>> 24 → compactBits.toNat >>> 24 ≤ 32 →
      compactBits.toNat &&& 0x7fffff < compactBits'.toNat &&& 0x7fffff →
      leValue (compactToTarget compactBits) < leValue (compactToTarget compactBits') :=
  ⟨fun _ fits => ⟨compactToTarget_length _, leValue_compactToTarget fits⟩,
    fun _ _ same large fits larger => by
      rw [leValue_compactToTarget fits, leValue_compactToTarget (same ▸ fits)]
      exact setCompactValue_lt same large larger⟩

/-- Block 1583's `bits`, and the next mantissa up. -/
theorem compactToTarget_eq_setCompact_on_block_1583 :
    (compactToTarget 0x1f09daa8).length = 32 ∧
      leValue (compactToTarget 0x1f09daa8) = setCompactValue 0x1f09daa8 ∧
      leValue (compactToTarget 0x1f09daa8) < leValue (compactToTarget 0x1f09daa9) :=
  ⟨(compactToTarget_eq_setCompact.1 _ (by decide)).1,
    (compactToTarget_eq_setCompact.1 _ (by decide)).2,
    compactToTarget_eq_setCompact.2 _ _ (by decide) (by decide) (by decide) (by decide)⟩

end JunoMiner
