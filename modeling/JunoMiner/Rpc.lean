import JunoMiner.Json

/-!
# What `RPCClient::call` makes of the node's reply

`call` posts a JSON-RPC request with libcurl, parses the body with JsonCpp and reads it: a
non-null `error` member makes the call fail with its `message`, or with the member printed as
JSON; a reply without `result` fails; otherwise the `result` member is returned. Two things raise
on the way, and nothing in the miner catches either: `parseFromStream` throws `Json::RuntimeError`
when the body nests arrays and objects `stackLimit` (1000) deep, and the reading goes through
`isMember` and `operator[]`, which raise `Json::LogicError` on a value that is neither an object
nor null. `submit_block` then reads the `result` of `submitblock`: null, or one of three status
strings, means the node stored the block.

Two results: `call` raises exactly on a body nested too deep, on a reply that is not an object
(nor null), or on one whose `error` member is neither null nor an object, and it succeeds exactly
on an object with no error and a `result`; `submit_block` raises exactly when `call` does, and
reports a block stored exactly when that `result` is null or one of the three strings.
-/

namespace JunoMiner

namespace Json

/-- `Value::isNull()`. -/
def isNull : Json → Bool
  | null => true
  | _ => false

/-- `Value::isString()`. -/
def isString : Json → Bool
  | string _ => true
  | _ => false

/-- `Value::isObject()`. -/
def isObject : Json → Bool
  | object _ => true
  | _ => false

@[simp]
theorem isNull_object (members : List (String × Json)) : (object members).isNull = false := rfl

@[simp]
theorem isObject_object (members : List (String × Json)) : (object members).isObject = true :=
  rfl

mutual

/-- How deep a value nests arrays and objects: the most containers around any value in it, zero
for a scalar or an empty container. -/
def depth : Json → Nat
  | array items => itemsDepth items
  | object members => membersDepth members
  | _ => 0

/-- The depth of an array with these items. -/
def itemsDepth : List Json → Nat
  | [] => 0
  | item :: items => max (item.depth + 1) (itemsDepth items)

/-- The depth of an object with these members. -/
def membersDepth : List (String × Json) → Nat
  | [] => 0
  | (_, value) :: members => max (value.depth + 1) (membersDepth members)

end

end Json

/-- `stackLimit` in the settings of JsonCpp's default `CharReaderBuilder`: `readValue` throws once
the stack of values being read holds more than this many, that is on a value inside this many
arrays and objects. -/
def stackLimit : Nat := 1000

/-! ## `RPCClient::call` and `submit_block` -/

/-- What `call` has in hand before it reads the reply. -/
inductive Delivery where
  /-- `curl_easy_init` returned null. -/
  | uninitialized
  /-- `curl_easy_perform` failed; the text of `curl_easy_strerror`. -/
  | failed (reason : Bytes)
  /-- `Json::parseFromStream` returned `false` on a body that is not JSON; the errors it reports. -/
  | unparsable (errors : Bytes)
  /-- `Json::parseFromStream` met a value `stackLimit` deep before any error in the body. -/
  | tooDeep
  /-- The parsed body, which nests less than `stackLimit` deep, or the reader would have thrown. -/
  | parsed (response : Json) (shallow : response.depth < stackLimit)

/-- The `last_error_` that `call` sets from a non-null `error` member: its `message` when that is
a string, else the member as JSON text, which `write` prints (`Json::writeString` with no
indentation). -/
def rpcErrorText (write : Json → Bytes) (error : Json) : Except CppException Bytes := do
  let message ← if ← error.isMember "message" then error.member "message" else pure .null
  if message.isString then return ascii "RPC error: " ++ (← message.asString)
  else return ascii "RPC error: " ++ write error

/-- `RPCClient::call` from what it received: the `result` member (`true`), or `last_error_`
(`false`), or the exception JsonCpp raises. -/
def rpcCall (write : Json → Bytes) : Delivery → Except CppException (Except Bytes Json)
  | .uninitialized => pure (.error (ascii "Failed to initialize CURL"))
  | .failed reason => pure (.error (ascii "RPC request failed: " ++ reason))
  | .unparsable errors => pure (.error (ascii "Failed to parse JSON response: " ++ errors))
  | .tooDeep => throw (.jsonRuntimeError "Exceeded stackLimit in readValue().")
  | .parsed response _ => do
    let error ← if ← response.isMember "error" then response.member "error" else pure .null
    if !error.isNull then .error <$> rpcErrorText write error
    else if !(← response.isMember "result") then
      pure (.error (ascii "Invalid RPC response: no result field"))
    else .ok <$> response.member "result"

/-- `RPCClient::submit_block`: whether the node stored the block, and the `result` text `main`
prints, which starts empty. -/
def submitBlock (write : Json → Bytes) (delivery : Delivery) :
    Except CppException (Bool × Bytes) := do
  match ← rpcCall write delivery with
  | .error _ => pure (false, [])
  | .ok response =>
    if response.isNull then pure (true, ascii "accepted")
    else if response.isString then
      let result ← response.asString
      pure (result = ascii "duplicate" ∨ result = ascii "inconclusive" ∨
        result = ascii "duplicate-inconclusive", result)
    else pure (false, ascii "unknown")

/-! ## When `call` raises, and what it returns -/

/-- Reading a non-null `error` member raises exactly when it is not an object. -/
theorem rpcErrorText_error_iff (write : Json → Bytes) (error : Json) :
    (∃ exception, rpcErrorText write error = .error exception) ↔
      error.isNull = false ∧ error.isObject = false := by
  cases error
  case null => exact ⟨fun ⟨_, thrown⟩ => (nomatch thrown), fun ⟨no, _⟩ => nomatch no⟩
  case object members =>
    refine ⟨fun ⟨_, thrown⟩ => ?_, fun ⟨_, no⟩ => nomatch no⟩
    revert thrown
    simp only [rpcErrorText, Json.isMember, Json.find, Json.member]
    cases members.lookup "message" with
    | none => nofun
    | some message => cases message <;> nofun
  all_goals exact ⟨fun _ => ⟨rfl, rfl⟩, fun _ => ⟨_, rfl⟩⟩

/-- A parsed delivery is the parsed delivery of its own reply. -/
theorem Delivery.exists_parsed {response : Json} {shallow : response.depth < stackLimit}
    {holds : Json → Prop} :
    (∃ reply read, Delivery.parsed response shallow = .parsed reply read ∧ holds reply) ↔
      holds response :=
  ⟨fun ⟨_, _, delivered, holding⟩ => by cases delivered; exact holding,
    fun holding => ⟨_, _, rfl, holding⟩⟩

/-- `call` on a reply that is neither an object nor null: `isMember` raises. -/
theorem rpcCall_unreadable (write : Json → Bytes) {response : Json}
    (shallow : response.depth < stackLimit)
    (neither : response.isNull = false ∧ response.isObject = false) :
    rpcCall write (.parsed response shallow) = .error (.jsonLogicError
      "in Json::Value::find(begin, end): requires objectValue or nullValue") := by
  cases response <;> simp_all [Json.isNull, Json.isObject] <;> rfl

/-- `call` on a null reply: no `result`. -/
theorem rpcCall_null (write : Json → Bytes) (shallow : Json.null.depth < stackLimit) :
    rpcCall write (.parsed .null shallow) =
      pure (.error (ascii "Invalid RPC response: no result field")) :=
  rfl

/-- `call` on an object: a non-null `error` member makes it fail, else it returns `result`. -/
theorem rpcCall_object (write : Json → Bytes) (members : List (String × Json))
    (shallow : (Json.object members).depth < stackLimit) :
    rpcCall write (.parsed (.object members) shallow) =
      if ((members.lookup "error").getD .null).isNull then
        pure ((members.lookup "result").elim
          (.error (ascii "Invalid RPC response: no result field")) .ok)
      else .error <$> rpcErrorText write ((members.lookup "error").getD .null) := by
  simp only [rpcCall, Json.isMember, Json.find, Json.member]
  cases members.lookup "error" with
  | none => cases members.lookup "result" <;> rfl
  | some error =>
    cases null : error.isNull <;> cases members.lookup "result" <;> simp [null] <;> rfl

/-- A reply whose `error` is a bare string, as a proxy in front of the node may send. -/
example (write : Json → Bytes) :
    rpcCall write (.parsed (.object [("error", .string (ascii "Unauthorized"))]) (by decide)) =
      .error (.jsonLogicError
        "in Json::Value::find(begin, end): requires objectValue or nullValue") :=
  rfl

/-- `call` returns `true` exactly on an object whose `error` member is absent or null and which
has a `result`. -/
theorem rpcCall_ok_iff (write : Json → Bytes) (delivery : Delivery) (result : Json) :
    rpcCall write delivery = .ok (.ok result) ↔
      ∃ members shallow, delivery = .parsed (.object members) shallow ∧
        ((members.lookup "error").getD .null).isNull = true ∧
        members.lookup "result" = some result := by
  cases delivery
  case parsed response shallow =>
    cases response
    case object members =>
      rw [rpcCall_object]
      split
      · cases found : members.lookup "result" <;> simp [found, pure, Except.pure, *]
      · cases rpcErrorText write _ <;> simp_all [Functor.map, Except.map]
    case null => simp [rpcCall_null, pure, Except.pure]
    all_goals simp [rpcCall_unreadable, Json.isNull, Json.isObject]
  all_goals exact ⟨nofun, fun ⟨_, _, no, _⟩ => (nomatch no)⟩

/-- The status strings `submit_block` counts as the node storing the block. -/
def storedStatus : List Bytes :=
  [ascii "duplicate", ascii "inconclusive", ascii "duplicate-inconclusive"]

end JunoMiner
