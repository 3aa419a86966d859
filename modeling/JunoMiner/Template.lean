import JunoMiner.Json

/-!
# `parse_block_template`

The header codec turns the `getblocktemplate` result into a `BlockTemplate`: the 140-byte
`header_base` (108 bytes of `CEquihashInput` and 32 zero bytes where the workers put the nonce),
the target decoded from `bits`, the seed, and the transactions in hex. Every required field that is
missing, and every hash whose text is not 64 characters, raises `std::runtime_error`; JsonCpp and
`std::stoi`/`std::stoul` raise their own exceptions on the way.
-/

namespace JunoMiner

/-- `struct BlockTemplate` (`miner.h`). -/
structure BlockTemplate where
  /-- `version`. -/
  version : UInt32
  /-- `previous_block_hash`: the hex text, display order. -/
  previousBlockHash : Bytes
  /-- `merkle_root`: the hex text, display order. -/
  merkleRoot : Bytes
  /-- `block_commitments_hash`: the hex text, display order. -/
  blockCommitmentsHash : Bytes
  /-- `time`, from `curtime`. -/
  time : UInt32
  /-- `bits`, the compact target. -/
  bits : UInt32
  /-- `target`: the 256-bit target, little-endian. -/
  target : Bytes
  /-- `target_hex`, for display only. -/
  targetHex : Bytes
  /-- `height` of the block being built. -/
  height : UInt32
  /-- `seed_height`, from `randomxseedheight`. -/
  seedHeight : UInt64
  /-- `seed_hash`, from `randomxseedhash`, internal order. -/
  seedHash : Bytes
  /-- `next_seed_hash`, from `randomxnextseedhash` when it has 64 characters. -/
  nextSeedHash : Bytes
  /-- `header_base`: the 140-byte header with a zero nonce. -/
  headerBase : Bytes
  /-- `coinbase_txn_hex`. -/
  coinbaseTxnHex : Bytes
  /-- `txn_hex`: the other transactions. -/
  txnHex : List Bytes
  deriving DecidableEq, Repr

/-- The `data` strings of the entries of `transactions` that have one, in order. -/
def transactionData : List Json → Except CppException (List Bytes)
  | [] => pure []
  | txn :: rest => do
    let here ← if ← txn.isMember "data" then do pure [← (← txn.get "data").asString] else pure []
    let later ← transactionData rest
    pure (here ++ later)

/-- A 32-byte hash given in display order, placed in `header` at `offset` in internal order:
`hex_to_bytes`, the size check, `std::reverse`, `std::copy`. -/
def placeReversed (header : Bytes) (offset : Nat) (hashHex : Bytes) (sizeError : String) :
    Except CppException Bytes := do
  let bytes ← hexToBytes hashHex
  if bytes.length ≠ 32 then throw (.runtimeError sizeError)
  pure (copyAt header offset bytes.reverse)

/-- `parse_block_template`. -/
def parseBlockTemplate (templateData : Json) : Except CppException BlockTemplate := do
  unless ← templateData.isMember "version" do
    throw (.runtimeError "Missing version in block template")
  let version ← (← templateData.get "version").asUInt
  unless ← templateData.isMember "previousblockhash" do
    throw (.runtimeError "Missing previousblockhash in block template")
  let previousBlockHash ← (← templateData.get "previousblockhash").asString
  unless ← templateData.isMember "curtime" do
    throw (.runtimeError "Missing curtime in block template")
  let time ← (← templateData.get "curtime").asUInt
  unless ← templateData.isMember "bits" do
    throw (.runtimeError "Missing bits in block template")
  let bits := UInt32.ofNat (← stoul16 (← (← templateData.get "bits").asString))
  unless ← templateData.isMember "height" do
    throw (.runtimeError "Missing height in block template")
  let height ← (← templateData.get "height").asUInt
  unless ← templateData.isMember "randomxseedheight" do
    throw (.runtimeError "Missing randomxseedheight in block template")
  let seedHeight ← (← templateData.get "randomxseedheight").asUInt64
  unless ← templateData.isMember "randomxseedhash" do
    throw (.runtimeError "Missing randomxseedhash in block template")
  let seedHashHex ← (← templateData.get "randomxseedhash").asString
  if seedHashHex.length ≠ 64 then throw (.runtimeError "Invalid randomxseedhash length")
  let seedHash ← hexToBytes seedHashHex
  let nextSeedHash ← if ← templateData.isMember "randomxnextseedhash" then do
      let nextSeedHex ← (← templateData.get "randomxnextseedhash").asString
      if nextSeedHex.length = 64 then hexToBytes nextSeedHex else pure []
    else pure []
  let target := compactToTarget bits
  let targetHex ← if ← templateData.isMember "target" then (← templateData.get "target").asString
    else pure []
  let merkleRoot ←
    if (← templateData.isMember "defaultroots") &&
        (← (← templateData.get "defaultroots").isMember "merkleroot") then
      (← (← templateData.get "defaultroots").get "merkleroot").asString
    else throw (.runtimeError "Missing defaultroots.merkleroot in block template")
  if merkleRoot.length ≠ 64 then throw (.runtimeError "Invalid merkleroot length")
  let blockCommitmentsHash ←
    if (← templateData.isMember "defaultroots") &&
        (← (← templateData.get "defaultroots").isMember "blockcommitmentshash") then
      (← (← templateData.get "defaultroots").get "blockcommitmentshash").asString
    else if ← templateData.isMember "blockcommitmentshash" then
      (← templateData.get "blockcommitmentshash").asString
    else throw (.runtimeError "Missing blockcommitmentshash in block template")
  if blockCommitmentsHash.length ≠ 64 then
    throw (.runtimeError "Invalid blockcommitmentshash length")
  let coinbaseTxnHex ←
    if (← templateData.isMember "coinbasetxn") &&
        (← (← templateData.get "coinbasetxn").isMember "data") then
      (← (← templateData.get "coinbasetxn").get "data").asString
    else throw (.runtimeError "Missing coinbasetxn.data in block template")
  let txnHex ←
    if (← templateData.isMember "transactions") &&
        (← templateData.get "transactions").isArray then
      match ← templateData.get "transactions" with
      | .array txns => transactionData txns
      | _ => pure []
    else pure []
  let header := writeLe32 (List.replicate 140 0) 0 version
  let header ← placeReversed header 4 previousBlockHash "Invalid previousblockhash size"
  let header ← placeReversed header 36 merkleRoot "Invalid merkleroot size"
  let header ← placeReversed header 68 blockCommitmentsHash "Invalid blockcommitmentshash size"
  let header := writeLe32 header 100 time
  let header := writeLe32 header 104 bits
  let offset := 4 + 32 + 32 + 32 + 4 + 4
  if offset ≠ 108 then throw (.runtimeError "Internal error: CEquihashInput size mismatch")
  let headerBase := copyAt header offset (List.replicate (140 - offset) 0)
  pure { version, previousBlockHash, merkleRoot, blockCommitmentsHash, time, bits, target,
         targetHex, height, seedHeight, seedHash, nextSeedHash, headerBase, coinbaseTxnHex,
         txnHex }

end JunoMiner
