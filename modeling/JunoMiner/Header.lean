import JunoMiner.Template

/-!
# The header `parse_block_template` builds, and what it accepts

For every `getblocktemplate` reply that carries the fields the parser reads, with the texts and
numbers it expects, `parse_block_template` returns a template whose 140-byte `header_base` is laid
out as `CEquihashInput`: the little-endian version, the three hashes in internal (reversed)
order, the little-endian time and bits, and a zero nonce. The reading of each field goes through
`std::stoi`/`std::stoul`, which the parser does not guard: what else it accepts, and the
exceptions other than `std::runtime_error` it lets out, are shown on sample replies.

The converse holds for every reply, well formed or not: whatever template the parser returns has
its header laid out from the hash texts it carries, its target decoded from its `bits`, and a
32-byte seed hash. The proof runs the parser's `do` block through a small condition generator
(`OkHolds`), after merging the branches that share a continuation.
-/

namespace JunoMiner

/-! ## Reading members -/

@[simp]
theorem Json.isMember_object (members : List (String × Json)) (key : String) :
    (Json.object members).isMember key = .ok (members.lookup key).isSome := rfl

@[simp]
theorem Json.get_object (members : List (String × Json)) (key : String) :
    (Json.object members).get key = .ok ((members.lookup key).getD .null) := rfl

@[simp]
theorem Json.asString_string (text : Bytes) : (Json.string text).asString = .ok text := rfl

theorem ok_bind {ε α β : Type} (a : α) (next : α → Except ε β) : (Except.ok a >>= next) = next a :=
  rfl

/-! ## The header -/

/-- Copying a block into zeros after `front` puts it right after `front`. -/
theorem copyAt_zeros {front new : Bytes} {offset rest : Nat} (front_length : front.length = offset)
    (fits : new.length ≤ rest) :
    copyAt (front ++ List.replicate rest 0) offset new =
      front ++ new ++ List.replicate (rest - new.length) 0 := by
  rw [show List.replicate rest (0 : UInt8) =
      List.replicate new.length 0 ++ List.replicate (rest - new.length) 0 by
    rw [← List.replicate_add]; congr 1; omega, ← List.append_assoc,
    copyAt_block front_length (by simp)]

/-- `read_le32` at the offset of a word written by `write_le32` reads the word back. -/
theorem readLe32_le32 (front : Bytes) (word : UInt32) (rest : Bytes) :
    readLe32 (front ++ le32 word ++ rest) front.length = word := by
  apply UInt32.ext
  rw [readLe32_toNat, List.append_assoc, List.drop_left, List.take_left' (le32_length word), le32,
    leValue_leBytes]
  exact Nat.mod_eq_of_lt (UInt32.toNat_lt word)

/-- The header of `parse_block_template`: the six fields of `CEquihashInput` and a zero nonce, one
after the other. -/
theorem header_layout (version time bits : UInt32) {previous merkle commitments : Bytes}
    (previous_length : previous.length = 32) (merkle_length : merkle.length = 32)
    (commitments_length : commitments.length = 32) :
    copyAt (writeLe32 (writeLe32 (copyAt (copyAt (copyAt (writeLe32 (List.replicate 140 0) 0
        version) 4 previous) 36 merkle) 68 commitments) 100 time) 104 bits) 108
        (List.replicate 32 0) =
      le32 version ++ previous ++ merkle ++ commitments ++ le32 time ++ le32 bits ++
        List.replicate 32 0 := by
  simp only [writeLe32]
  rw [← List.nil_append (List.replicate 140 0), copyAt_zeros, List.nil_append, copyAt_zeros,
    copyAt_zeros, copyAt_zeros, copyAt_zeros, copyAt_zeros, copyAt_zeros]
  all_goals simp [previous_length, merkle_length, commitments_length, le32_length]

/-- The six fields of the laid-out header, read back at their offsets. -/
theorem header_fields (version time bits : UInt32) {previous merkle commitments : Bytes}
    (previous_length : previous.length = 32) (merkle_length : merkle.length = 32)
    (commitments_length : commitments.length = 32) :
    let header := le32 version ++ previous ++ merkle ++ commitments ++ le32 time ++ le32 bits ++
      List.replicate 32 0
    header.length = 140 ∧ readLe32 header 0 = version ∧ (header.drop 4).take 32 = previous ∧
      (header.drop 36).take 32 = merkle ∧ (header.drop 68).take 32 = commitments ∧
      readLe32 header 100 = time ∧ readLe32 header 104 = bits ∧
      header.drop 108 = List.replicate 32 0 := by
  dsimp only
  have word (front rest : Bytes) (word : UInt32) {offset : Nat}
      (front_length : front.length = offset) :
      readLe32 (front ++ le32 word ++ rest) offset = word :=
    front_length ▸ readLe32_le32 front word rest
  have lengths := And.intro previous_length (And.intro merkle_length commitments_length)
  refine ⟨by simp [lengths, le32_length], word [] _ _ rfl, ?_, ?_, ?_,
    by rw [List.append_assoc _ (le32 bits)]; exact word _ _ _ (by simp [lengths, le32_length]),
    word _ _ _ (by simp [lengths, le32_length]), List.drop_left' (by simp [lengths, le32_length])⟩
  all_goals simp only [List.append_assoc]
  · simp [List.drop_left', List.take_left', lengths, le32_length]
  · rw [← List.append_assoc, List.drop_left' (by simp [lengths, le32_length])]
    exact List.take_left' merkle_length
  · rw [← List.append_assoc, ← List.append_assoc,
      List.drop_left' (by simp [lengths, le32_length])]
    exact List.take_left' commitments_length

/-! ## Replies the parser reads -/

/-- A hash of 64 hex digits decodes to 32 bytes. -/
theorem hexToBytes_hash {text : Bytes} (digits : text.length = 64 ∧ text.all isHexDigit = true) :
    ∃ bytes, hexToBytes text = .ok bytes ∧ bytes.length = 32 := by
  obtain ⟨bytes, decoded, printed⟩ := hexToBytes_hexText text (by rw [digits.1]) digits.2
  have lengths := congrArg List.length printed
  rw [bytesToHex_length, lowercase_length, digits.1] at lengths
  exact ⟨bytes, decoded, by omega⟩

/-- `bits` of at most eight hex digits is below `2^32`, so `std::stoul`'s value survives the
cast to `uint32_t`. -/
theorem hexValue_lt_of_eight_digits {digits : Bytes} (short : digits.length ≤ 8)
    (all : digits.all isHexDigit = true) : hexValue digits < 2 ^ 32 :=
  calc hexValue digits < 16 ^ digits.length := hexValue_lt all
    _ ≤ 16 ^ 8 := Nat.pow_le_pow_right (by norm_num) short
    _ = 2 ^ 32 := by norm_num

/-- A `getblocktemplate` reply, as a list of members, that carries every field
`parse_block_template` reads, each readable: `version` and `curtime` as the header's words,
the four hashes as 64 hex digits, `bits` as one to eight hex digits, `height` and
`randomxseedheight` as numbers, `coinbasetxn` an object whose `data` member is a string, and the
optional members (the next seed hash, `target`, `transactions`) readable when present. The
block-commitments hash is read from `defaultroots` when it is there and from the top level
otherwise. -/
structure TemplateReply (members : List (String × Json)) (version time : UInt32)
    (previousBlockHash merkleRoot blockCommitmentsHash bitsHex seedHashHex : Bytes) : Prop where
  versionRead : ∃ value, members.lookup "version" = some value ∧ value.asUInt = .ok version
  previousFound : members.lookup "previousblockhash" = some (.string previousBlockHash)
  curtimeRead : ∃ value, members.lookup "curtime" = some value ∧ value.asUInt = .ok time
  bitsFound : members.lookup "bits" = some (.string bitsHex)
  heightRead : ∃ value height, members.lookup "height" = some value ∧ value.asUInt = .ok height
  seedHeightRead : ∃ value seedHeight, members.lookup "randomxseedheight" = some value ∧
    value.asUInt64 = .ok seedHeight
  seedHashFound : members.lookup "randomxseedhash" = some (.string seedHashHex)
  nextSeedRead : ∃ text, ((members.lookup "randomxnextseedhash").getD .null).asString = .ok text ∧
    (text.length = 64 → text.all isHexDigit = true)
  targetRead : ∃ text, ((members.lookup "target").getD .null).asString = .ok text
  rootsFound : ∃ roots, members.lookup "defaultroots" = some (.object roots) ∧
    roots.lookup "merkleroot" = some (.string merkleRoot) ∧
    (roots.lookup "blockcommitmentshash" = some (.string blockCommitmentsHash) ∨
      roots.lookup "blockcommitmentshash" = none ∧
        members.lookup "blockcommitmentshash" = some (.string blockCommitmentsHash))
  coinbaseFound : ∃ coinbaseTxn data, members.lookup "coinbasetxn" = some (.object coinbaseTxn) ∧
    coinbaseTxn.lookup "data" = some (.string data)
  transactionsRead : ∀ items, (members.lookup "transactions").getD .null = .array items →
    ∃ data, transactionData items = .ok data
  hashDigits : ∀ text ∈ [previousBlockHash, merkleRoot, blockCommitmentsHash, seedHashHex],
    text.length = 64 ∧ text.all isHexDigit = true
  bitsDigits : bitsHex ≠ [] ∧ bitsHex.length ≤ 8 ∧ bitsHex.all isHexDigit = true

section Reply

variable {members : List (String × Json)} {version time : UInt32}
  {previousBlockHash merkleRoot blockCommitmentsHash bitsHex seedHashHex : Bytes}

/-- On such a reply `parse_block_template` returns a template whose header is the concatenation
of the fields, with the decoded hashes reversed, whatever the optional members hold. -/
theorem parseBlockTemplate_ok
    (reply : TemplateReply members version time previousBlockHash merkleRoot
      blockCommitmentsHash bitsHex seedHashHex)
    {previous merkle commitments seed : Bytes}
    (previous_decoded : hexToBytes previousBlockHash = .ok previous)
    (merkle_decoded : hexToBytes merkleRoot = .ok merkle)
    (commitments_decoded : hexToBytes blockCommitmentsHash = .ok commitments)
    (seed_decoded : hexToBytes seedHashHex = .ok seed) (previous_length : previous.length = 32)
    (merkle_length : merkle.length = 32) (commitments_length : commitments.length = 32) :
    ∃ bt, parseBlockTemplate (.object members) = .ok bt ∧
      bt.headerBase = le32 version ++ previous.reverse ++ merkle.reverse ++ commitments.reverse ++
        le32 time ++ le32 (UInt32.ofNat (hexValue bitsHex)) ++ List.replicate 32 0 ∧
      bt.seedHash = seed ∧ bt.bits = UInt32.ofNat (hexValue bitsHex) ∧
      bt.target = compactToTarget bt.bits := by
  obtain ⟨⟨versionValue, versionFound, versionWord⟩, previousFound,
    ⟨curtimeValue, curtimeFound, curtimeWord⟩, bitsFound,
    ⟨heightValue, height, heightFound, heightNumber⟩,
    ⟨seedHeightValue, seedHeight, seedHeightFound, seedHeightNumber⟩, seedHashFound,
    ⟨nextHex, nextText, nextDigits⟩, ⟨targetHex, targetText⟩,
    ⟨roots, rootsFound, merkleFound, commitmentsFound⟩,
    ⟨coinbaseTxn, coinbase, coinbaseFound, coinbaseData⟩, transactionsRead, hashDigits,
    ⟨bitsNonempty, bitsShort, bitsAllHex⟩⟩ := reply
  have lengths := fun text inside => (hashDigits text inside).1
  have bitsValue := stoul16_hexText bitsNonempty bitsAllHex (by omega)
  have layout := header_layout version time (UInt32.ofNat (hexValue bitsHex))
    (by simp [previous_length] : previous.reverse.length = 32)
    (by simp [merkle_length] : merkle.reverse.length = 32)
    (by simp [commitments_length] : commitments.reverse.length = 32)
  -- each optional member hands one value to the rest of the parser, whichever branch reads it
  obtain ⟨next, nextRead⟩ : ∃ next : Bytes, ∀ rest : Bytes → Except CppException BlockTemplate,
      (if (members.lookup "randomxnextseedhash").isSome then
        if nextHex.length = 64 then hexToBytes nextHex >>= rest else rest [] else rest []) =
        rest next := by
    by_cases long : nextHex.length = 64
    · obtain ⟨bytes, decoded, -⟩ := hexToBytes_hexText nextHex (by rw [long]) (nextDigits long)
      exact ⟨if (members.lookup "randomxnextseedhash").isSome then bytes else [],
        fun rest => by split <;> simp only [long, decoded, ok_bind, ↓reduceIte]⟩
    · exact ⟨[], fun rest => by simp only [long, ↓reduceIte, ite_self]⟩
  have targetRead (rest : Bytes → Except CppException BlockTemplate) :
      (if (members.lookup "target").isSome then rest targetHex else rest []) =
        rest (if (members.lookup "target").isSome then targetHex else []) :=
    (apply_ite rest _ _ _).symm
  have commitmentsRead (rest : Bytes → Except CppException BlockTemplate)
      (missing : Except CppException BlockTemplate) :
      (if (roots.lookup "blockcommitmentshash").isSome then
        ((roots.lookup "blockcommitmentshash").getD .null).asString >>= rest
      else if (members.lookup "blockcommitmentshash").isSome then
        ((members.lookup "blockcommitmentshash").getD .null).asString >>= rest
      else missing) = rest blockCommitmentsHash := by
    rcases commitmentsFound with inRoots | ⟨notInRoots, atTop⟩
    · simp only [inRoots, Option.isSome_some, Option.getD_some, Json.asString_string, ok_bind,
        ↓reduceIte]
    · simp only [notInRoots, atTop, Option.isSome_some, Option.isSome_none, Option.getD_some,
        Json.asString_string, ok_bind, ↓reduceIte, Bool.false_eq_true]
  have commitmentsLength := lengths _ (by simp : blockCommitmentsHash ∈ _)
  simp -zeta only [parseBlockTemplate, Option.isSome_some, Option.getD_some,
    ↓reduceIte, pure_bind, Bool.true_and, ne_eq, not_true_eq_false,
    not_false_eq_true, Json.isMember_object, Json.get_object,
    versionFound, versionWord, previousFound, curtimeFound, curtimeWord, bitsFound, bitsValue,
    heightFound, heightNumber, seedHeightFound, seedHeightNumber, seedHashFound, seed_decoded,
    nextText, targetText, rootsFound, merkleFound, coinbaseFound, coinbaseData,
    Json.asString_string, ok_bind, lengths _ (by simp : seedHashHex ∈ _),
    nextRead, targetRead, commitmentsRead]
  simp only [↓reduceIte, pure_bind, ok_bind, ne_eq, not_true_eq_false, placeReversed,
    previous_decoded, previous_length, merkle_decoded, merkle_length, commitments_decoded,
    commitments_length, lengths _ (by simp : merkleRoot ∈ _), commitmentsLength,
    List.length_reverse, Nat.reduceAdd, Nat.reduceSub, layout]
  -- the transactions, read when `transactions` is an array
  split
  · split
    next items listed =>
      obtain ⟨data, read⟩ := transactionsRead items listed
      rw [read, ok_bind]
      exact ⟨_, rfl, rfl, rfl, rfl, rfl⟩
    all_goals exact ⟨_, rfl, rfl, rfl, rfl, rfl⟩
  · exact ⟨_, rfl, rfl, rfl, rfl, rfl⟩

end Reply

/-! ## Sample replies -/

/-- A reply with the header's fields and nothing else: hashes of 64 zero digits and the `bits` of
block 1583. -/
def headerMembers : List (String × Json) :=
  [("version", .uint 4), ("previousblockhash", .string (List.replicate 64 48)),
    ("curtime", .uint 0), ("bits", .string (ascii "1f09daa8")),
    ("randomxseedhash", .string (List.replicate 64 48)),
    ("defaultroots", .object [("merkleroot", .string (List.replicate 64 48)),
      ("blockcommitmentshash", .string (List.replicate 64 48))])]

/-- `headerMembers` with the other fields the parser requires. -/
def sampleReply : List (String × Json) :=
  headerMembers ++ [("height", .uint 5), ("randomxseedheight", .uint 0),
    ("coinbasetxn", .object [("data", .string (ascii "00"))])]

/-- What `hex_to_bytes` and `std::stoul` let through: a previous-block hash of 63 digits (the last
digit read alone), a hash of `" f"` pairs (`std::stoi` skips the blank), and a `bits` of ten
digits cut to its low 32 bits are all accepted, and a `bits` with no digit raises
`std::invalid_argument` rather than the parser's `std::runtime_error`. -/
theorem parseBlockTemplate_lenient_fields :
    (parseBlockTemplate
        (.object (("previousblockhash", .string (List.replicate 63 48)) :: sampleReply))).toBool ∧
      ((parseBlockTemplate (.object (("previousblockhash",
          .string (List.replicate 32 (ascii " f")).flatten) :: sampleReply))).toOption.map
        fun bt => bt.headerBase.take 8) = some [4, 0, 0, 0, 15, 15, 15, 15] ∧
      ((parseBlockTemplate (.object (("bits", .string (ascii "ff1f09daa8")) ::
          sampleReply))).toOption.map fun bt => bt.bits) = some 0x1f09daa8 ∧
      parseBlockTemplate (.object (("bits", .string (ascii "zz")) :: sampleReply)) =
        .error (.invalidArgument "stoul") :=
  ⟨by decide, by decide, by decide, rfl⟩

/-! ## What every accepted reply yields -/

theorem bind_eq_ok {ε α γ : Type} {x : Except ε γ} {f : γ → Except ε α} {value : α} :
    (x >>= f) = .ok value ↔ ∃ middle, x = .ok middle ∧ f middle = .ok value := by
  cases x <;> simp [bind, Except.bind]

/-- `hex_to_bytes` gives one byte per pair of characters, and one for a last odd character. -/
theorem hexToBytes_length {text bytes : Bytes} (decoded : hexToBytes text = .ok bytes) :
    bytes.length = (text.length + 1) / 2 := by
  induction text using hexToBytes.induct generalizing bytes with
  | case1 => cases decoded; rfl
  | case2 last =>
    obtain ⟨_, _, ⟨⟩⟩ := bind_eq_ok.mp decoded
    simp
  | case3 high low rest later =>
    obtain ⟨_, _, tail⟩ := bind_eq_ok.mp decoded
    obtain ⟨tail, decodedTail, ⟨⟩⟩ := bind_eq_ok.mp tail
    simp only [List.length_cons, later decodedTail]
    omega

theorem placeReversed_ok {header result hashHex : Bytes} {offset : Nat} {sizeError : String}
    (placed : placeReversed header offset hashHex sizeError = .ok result) :
    ∃ bytes, hexToBytes hashHex = .ok bytes ∧ bytes.length = 32 ∧
      result = copyAt header offset bytes.reverse := by
  obtain ⟨bytes, decoded, checked⟩ := bind_eq_ok.mp placed
  by_cases size : bytes.length = 32
  · rw [if_neg (not_not.mpr size)] at checked
    cases checked
    exact ⟨bytes, decoded, size, rfl⟩
  · rw [if_pos size] at checked
    cases checked

/-- What every template `parse_block_template` returns satisfies: the header holds the version,
the three hashes decoded (each to 32 bytes) and reversed, the time, the bits and a zero nonce;
the target is the one `bits` encodes; the merkle root and commitments texts have 64 characters;
the seed hash has the 32 bytes `main` prints and hands to RandomX. -/
structure BlockTemplate.WellFormed (template : BlockTemplate) : Prop where
  header : ∃ previous merkle commitments, hexToBytes template.previousBlockHash = .ok previous ∧
    hexToBytes template.merkleRoot = .ok merkle ∧
    hexToBytes template.blockCommitmentsHash = .ok commitments ∧
    previous.length = 32 ∧ merkle.length = 32 ∧ commitments.length = 32 ∧
    template.headerBase = le32 template.version ++ previous.reverse ++ merkle.reverse ++
      commitments.reverse ++ le32 template.time ++ le32 template.bits ++ List.replicate 32 0
  target : template.target = compactToTarget template.bits
  merkleRoot_length : template.merkleRoot.length = 64
  blockCommitmentsHash_length : template.blockCommitmentsHash.length = 64
  seedHash_length : template.seedHash.length = 32

theorem BlockTemplate.WellFormed.headerBase_length {template : BlockTemplate}
    (wf : template.WellFormed) : template.headerBase.length = 140 := by
  obtain ⟨previous, merkle, commitments, -, -, -, previous_length, merkle_length,
    commitments_length, header⟩ := wf.header
  simp [header, previous_length, merkle_length, commitments_length]

/-- The 108 bytes of the header that `get_solution` keeps in front of the nonce end with `nBits`. -/
theorem BlockTemplate.WellFormed.take_solved {template : BlockTemplate}
    (wf : template.WellFormed) :
    ∃ front, front.length = 104 ∧ template.headerBase.take 108 = front ++ le32 template.bits := by
  obtain ⟨previous, merkle, commitments, -, -, -, previous_length, merkle_length,
    commitments_length, header⟩ := wf.header
  have front_length : (le32 template.version ++ previous.reverse ++ merkle.reverse ++
      commitments.reverse ++ le32 template.time).length = 104 := by
    simp [previous_length, merkle_length, commitments_length, le32_length]
  exact ⟨_, front_length, by
    rw [header, List.take_left' (by rw [List.length_append, front_length, le32_length])]⟩

/-- The end of the parser: the header assembled from the hashes it read, and the checks on the
texts' lengths, give a well-formed template. -/
theorem BlockTemplate.wellFormed_of_fields {template : BlockTemplate} {header : Bytes}
    {previousError merkleError commitmentsError : String}
    (placed : ((placeReversed (writeLe32 (List.replicate 140 0) 0 template.version) 4
        template.previousBlockHash previousError >>= fun a =>
          placeReversed a 36 template.merkleRoot merkleError) >>= fun a =>
          placeReversed a 68 template.blockCommitmentsHash commitmentsError) = .ok header)
    (headerBase : template.headerBase =
      copyAt (writeLe32 (writeLe32 header 100 template.time) 104 template.bits)
        (4 + 32 + 32 + 32 + 4 + 4) (List.replicate (140 - (4 + 32 + 32 + 32 + 4 + 4)) 0))
    (target : template.target = compactToTarget template.bits)
    (merkle_length : ¬template.merkleRoot.length ≠ 64)
    (commitments_length : ¬template.blockCommitmentsHash.length ≠ 64)
    {seedHex : Bytes} (seed : hexToBytes seedHex = .ok template.seedHash)
    (seed_length : ¬seedHex.length ≠ 64) : template.WellFormed := by
  obtain ⟨_, placed, third⟩ := bind_eq_ok.mp placed
  obtain ⟨_, first, second⟩ := bind_eq_ok.mp placed
  obtain ⟨previous, previousDecoded, previous_length, rfl⟩ := placeReversed_ok first
  obtain ⟨merkle, merkleDecoded, merkle_length', rfl⟩ := placeReversed_ok second
  obtain ⟨commitments, commitmentsDecoded, commitments_length', rfl⟩ := placeReversed_ok third
  refine ⟨⟨previous, merkle, commitments, previousDecoded, merkleDecoded, commitmentsDecoded,
    previous_length, merkle_length', commitments_length', ?_⟩, target, not_not.mp merkle_length,
    not_not.mp commitments_length, ?_⟩
  · rw [headerBase]
    exact header_layout _ _ _ (by simpa) (by simpa) (by simpa)
  · rw [hexToBytes_length seed, not_not.mp seed_length]

section Branches

variable {ε α β : Type} {c : Prop} [Decidable c] {k : α → Except ε β}

/-! Branches of a `do` block that end in the same continuation, merged so that the continuation
is run once. -/

theorem ite_bind_join (x y : Except ε α) :
    (if c then x >>= k else y >>= k) = (if c then x else y) >>= k := by
  split <;> rfl

theorem ite_bind_call (x : Except ε α) (d : α) :
    (if c then x >>= k else k d) = (if c then x else pure d) >>= k := by
  split <;> rfl

theorem ite_call_bind (x : Except ε α) (d : α) :
    (if c then k d else x >>= k) = (if c then pure d else x) >>= k := by
  split <;> rfl

theorem bind_bind_join {γ : Type} (x : Except ε γ) (f : γ → Except ε α) :
    (x >>= fun a => f a >>= k) = (x >>= f) >>= k := by
  cases x <;> rfl

end Branches

/-- `holds` is true of whatever value `result` returns. -/
def OkHolds {ε α : Type} (holds : α → Prop) (result : Except ε α) : Prop :=
  ∀ value, result = .ok value → holds value

section OkHolds

variable {ε α β : Type} {holds : α → Prop}

theorem okHolds_bind {first : Except ε β} {next : β → Except ε α}
    (step : ∀ middle, first = .ok middle → OkHolds holds (next middle)) :
    OkHolds holds (first >>= next) := by
  intro value ran
  obtain ⟨middle, firstRan, nextRan⟩ := bind_eq_ok.mp ran
  exact step middle firstRan value nextRan

theorem okHolds_check {c : Prop} [Decidable c] {error : ε} {next : PUnit → Except ε α}
    (passed : ¬c → OkHolds holds (next ())) :
    OkHolds holds ((if c then throw error else pure ()) >>= next) := by
  split
  · exact nofun
  · exact passed ‹_›

theorem okHolds_pure {value : α} (holding : holds value) :
    OkHolds holds (pure value : Except ε α) := by
  rintro _ ⟨⟩
  exact holding

theorem okHolds_ite {c : Prop} [Decidable c] {yes no : Except ε α}
    (ifYes : c → OkHolds holds yes) (ifNo : ¬c → OkHolds holds no) :
    OkHolds holds (if c then yes else no) := by
  split
  · exact ifYes ‹_›
  · exact ifNo ‹_›

end OkHolds

/-- Every template `parse_block_template` returns, whatever the reply, is well formed: its
`header_base` is the version, the decoded and reversed hashes, the time, the bits and a zero
nonce, its target is the one its bits encode, and its seed hash has 32 bytes. -/
theorem parseBlockTemplate_wellFormed {data : Json} {template : BlockTemplate}
    (parsed : parseBlockTemplate data = .ok template) : template.WellFormed := by
  refine (?_ : OkHolds BlockTemplate.WellFormed (parseBlockTemplate data)) template parsed
  unfold parseBlockTemplate
  simp -zeta only [ite_bind_join, ite_bind_call, ite_call_bind, bind_bind_join]
  dsimp only
  -- one condition per bind, check and branch, down to the record the parser returns
  repeat' first
    | with_reducible apply okHolds_check
    | with_reducible apply okHolds_bind
    | with_reducible apply okHolds_ite
    | with_reducible apply okHolds_pure
    | with_reducible intro _
    | split
  all_goals exact BlockTemplate.wellFormed_of_fields ‹_› rfl rfl ‹_› ‹_› ‹_› ‹_›

/-- Whatever reply it reads, the template `parse_block_template` returns has a 140-byte
`header_base` that reads back as the template: the version at 0, the previous-block, merkle-root
and block-commitments hashes decoded and reversed at 4, 36 and 68, the time at 100, the bits at
104 and a zero nonce from 108. Its target is the one its bits encode, and its seed hash has the 32
bytes `main` prints and keys RandomX with. -/
theorem parsed_header_reads_back {data : Json} {template : BlockTemplate}
    (parsed : parseBlockTemplate data = .ok template) :
    template.headerBase.length = 140 ∧ readLe32 template.headerBase 0 = template.version ∧
      (hexToBytes template.previousBlockHash).map List.reverse =
        .ok ((template.headerBase.drop 4).take 32) ∧
      (hexToBytes template.merkleRoot).map List.reverse =
        .ok ((template.headerBase.drop 36).take 32) ∧
      (hexToBytes template.blockCommitmentsHash).map List.reverse =
        .ok ((template.headerBase.drop 68).take 32) ∧
      readLe32 template.headerBase 100 = template.time ∧
      readLe32 template.headerBase 104 = template.bits ∧
      template.headerBase.drop 108 = List.replicate 32 0 ∧
      template.target = compactToTarget template.bits ∧ template.seedHash.length = 32 := by
  obtain ⟨⟨previous, merkle, commitments, previousDecoded, merkleDecoded, commitmentsDecoded,
    previous_length, merkle_length, commitments_length, header⟩, target, -, -, seed⟩ :=
    parseBlockTemplate_wellFormed parsed
  obtain ⟨length, versionWord, previousSlice, merkleSlice, commitmentsSlice, timeWord, bitsWord,
    nonce⟩ := header_fields template.version template.time template.bits
      (by simp [previous_length] : previous.reverse.length = 32)
      (by simp [merkle_length] : merkle.reverse.length = 32)
      (by simp [commitments_length] : commitments.reverse.length = 32)
  rw [header, previousDecoded, merkleDecoded, commitmentsDecoded, previousSlice, merkleSlice,
    commitmentsSlice]
  exact ⟨length, versionWord, rfl, rfl, rfl, timeWord, bitsWord, nonce, target, seed⟩

theorem parsed_header_reads_back_on_sample_reply :
    ∃ template, parseBlockTemplate (.object sampleReply) = .ok template ∧
      template.headerBase.length = 140 ∧ readLe32 template.headerBase 104 = template.bits :=
  ⟨_, rfl, (@parsed_header_reads_back (.object sampleReply) _ rfl).1,
    (@parsed_header_reads_back (.object sampleReply) _ rfl).2.2.2.2.2.2.1⟩

end JunoMiner
