import JunoMiner.Hex

/-!
# Block submission bytes: `encode_varint` and `serialize_block`

`serialize_block` lays out the header, the `nSolution` vector (a CompactSize length and the PoW
hash) and the transactions, and hands the node the hex of the whole. The node reads the lengths
back with its CompactSize reader, which rejects any encoding that is not the shortest one and any
value above `MAX_SIZE`. The two results here: decoding the submitted hex gives exactly that
layout, and every `uint64_t` the miner encodes is read back by the node, with nothing consumed
past its encoding, exactly when it is at most `MAX_SIZE`.
-/

namespace JunoMiner

/-- `utils::encode_varint`: Bitcoin CompactSize, one byte below `0xfd`, else a marker and 2, 4
or 8 little-endian bytes. -/
def encodeVarint (n : UInt64) : Bytes :=
  if n.toNat < 0xfd then [UInt8.ofNat n.toNat]
  else if n.toNat ≤ 0xffff then 0xfd :: leBytes 2 n.toNat
  else if n.toNat ≤ 0xffffffff then 0xfe :: leBytes 4 n.toNat
  else 0xff :: leBytes 8 n.toNat

/-- `utils::serialize_block`: header, `varint(|solution|)`, solution, `varint(1 + |txn_hex|)`,
the coinbase and the other transactions decoded from hex, all printed back as hex. -/
def serializeBlock (header solution coinbaseHex : Bytes) (txnHex : List Bytes) :
    Except CppException Bytes := do
  let coinbaseBytes ← hexToBytes coinbaseHex
  let txBytes ← txnHex.mapM hexToBytes
  let result := header ++ encodeVarint (UInt64.ofNat solution.length) ++ solution ++
    encodeVarint (UInt64.ofNat (1 + txnHex.length)) ++ coinbaseBytes ++ txBytes.flatten
  pure (bytesToHex result)

/-- `count` little-endian bytes from the front of a stream, or `none` on a short read. -/
def readLe (count : Nat) (stream : Bytes) : Option (Nat × Bytes) :=
  if count ≤ stream.length then some (leValue (stream.take count), stream.drop count) else none

/-- The node's `MAX_SIZE`, the largest size `ReadCompactSize` accepts. -/
def maxSize : Nat := 0x02000000

/-- The first part of the node's `ReadCompactSize`: the marker byte and the value it announces,
with the rest of the stream, or `none` where the node throws: on a short read, and on a
non-canonical encoding (a marker followed by a value that a shorter form holds). -/
def readCompactSizeValue : Bytes → Option (Nat × Bytes)
  | [] => none
  | marker :: stream =>
    if marker.toNat < 253 then some (marker.toNat, stream)
    else
      let width := if marker.toNat = 253 then 2 else if marker.toNat = 254 then 4 else 8
      let least := if marker.toNat = 253 then 253 else if marker.toNat = 254 then 0x10000
        else 0x100000000
      (readLe width stream).bind fun (value, rest) =>
        if value < least then none else some (value, rest)

/-- The node's `ReadCompactSize`: the value and the rest of the stream, or `none` where it throws,
in `readCompactSizeValue` or on a value above `MAX_SIZE` ("ReadCompactSize(): size too large"). -/
def readCompactSize (stream : Bytes) : Option (UInt64 × Bytes) :=
  (readCompactSizeValue stream).bind fun (value, rest) =>
    if maxSize < value then none else some (UInt64.ofNat value, rest)

theorem readLe_leBytes (count value : Nat) (rest : Bytes) :
    readLe count (leBytes count value ++ rest) = some (value % 256 ^ count, rest) := by
  simp [readLe, List.take_left', List.drop_left', leValue_leBytes]

theorem uint64_ofNat_toNat (n : UInt64) : UInt64.ofNat n.toNat = n := by
  apply UInt64.ext
  simpa using Nat.mod_eq_of_lt n.toNat_lt

/-- Every `uint64_t` that `encode_varint` writes is read back by the node's canonical checks as
the shortest encoding of that value, with exactly its bytes consumed. -/
theorem readCompactSizeValue_encodeVarint (n : UInt64) (rest : Bytes) :
    readCompactSizeValue (encodeVarint n ++ rest) = some (n.toNat, rest) := by
  have below : n.toNat < 18446744073709551616 := by simpa using n.toNat_lt
  unfold encodeVarint
  split_ifs with one two four
  · simp [readCompactSizeValue, Nat.mod_eq_of_lt (by omega : n.toNat < 256), one]
  all_goals
    simp only [List.cons_append, readCompactSizeValue, UInt8.toNat_ofNat]
    norm_num [readLe_leBytes]
    rw [Nat.mod_eq_of_lt (by omega)]
    omega

/-- The node's reader on what `encode_varint` writes: a size up to `MAX_SIZE` is accepted as the
shortest encoding of that value, with exactly its bytes consumed; a larger one is rejected. -/
theorem readCompactSize_encodeVarint (n : UInt64) (rest : Bytes) :
    readCompactSize (encodeVarint n ++ rest) =
      if n.toNat ≤ maxSize then some (n, rest) else none := by
  simp only [readCompactSize, readCompactSizeValue_encodeVarint, Option.some_bind]
  by_cases small : n.toNat ≤ maxSize
  · simp [small, Nat.not_lt.mpr small, uint64_ofNat_toNat]
  · simp [small, Nat.lt_of_not_le small]

/-- The first size the node refuses: `MAX_SIZE + 1`, four bytes after the `0xfe` marker. -/
theorem readCompactSize_rejects_above_maxSize :
    readCompactSize (encodeVarint 0x02000001) = none := by
  simpa [maxSize] using readCompactSize_encodeVarint 0x02000001 []

/-- What the node reads first from the hex `serialize_block` returned: the header, then the
`nSolution` vector, its CompactSize length and its bytes. -/
theorem serializeBlock_ok {header solution coinbaseHex : Bytes} {txnHex : List Bytes}
    {block : Bytes} (serialized : serializeBlock header solution coinbaseHex txnHex = .ok block) :
    ∃ rest, hexToBytes block =
      .ok (header ++ (encodeVarint (UInt64.ofNat solution.length) ++ (solution ++ rest))) := by
  revert serialized
  simp only [serializeBlock]
  cases hexToBytes coinbaseHex <;> cases txnHex.mapM hexToBytes <;> rintro ⟨⟩
  exact ⟨_, by rw [hexToBytes_bytesToHex]; simp only [List.append_assoc]; rfl⟩

/-- The node decodes the submitted hex into the header, the `nSolution` vector and the
transactions, in that order, and reads each CompactSize length up to `MAX_SIZE` back as the value
written, rejecting larger ones (a transaction string that `hex_to_bytes` rejects makes both sides
fail alike). -/
theorem serialize_block_bytes (header solution coinbaseHex : Bytes) (txnHex : List Bytes) :
    (serializeBlock header solution coinbaseHex txnHex >>= hexToBytes) =
      (do
        let coinbase ← hexToBytes coinbaseHex
        let transactions ← txnHex.mapM hexToBytes
        pure (header ++ encodeVarint (UInt64.ofNat solution.length) ++ solution ++
          encodeVarint (UInt64.ofNat (1 + txnHex.length)) ++ coinbase ++ transactions.flatten)) ∧
    ∀ (n : UInt64) (rest : Bytes), readCompactSize (encodeVarint n ++ rest) =
      if n.toNat ≤ maxSize then some (n, rest) else none := by
  refine ⟨?_, readCompactSize_encodeVarint⟩
  simp only [serializeBlock]
  cases hexToBytes coinbaseHex <;> cases txnHex.mapM hexToBytes <;>
    simp [bind, Except.bind, pure, Except.pure, hexToBytes_bytesToHex]

end JunoMiner
