import JunoMiner.Config
import Mathlib.Data.Nat.Digits

/-!
# The thread-count prompt

After `T`, `main` stops the miner and asks for a new worker count: `get_thread_count_input`
reads a line of at most 31 characters with `read()`, parses it with `sscanf("%d")`, and returns
the count, or `-1` with an update message when the read fails, when no number is there, or when
the number is below one. A count above the CPU cores is only warned about. `main` hands
`set_thread_count` what the prompt returned when it is positive.

The result: a count typed in decimal is read back as glibc converts it, the number itself in the
range of an `int` and its low 32 bits beyond, up to `LONG_MAX`.
-/

namespace JunoMiner

/-! ## `get_thread_count_input` -/

/-- The loop of `get_thread_count_input` that fills `input_buffer` with `read()`: at most `room`
characters, up to a newline; `none` when `read` returns nothing first. -/
def readLine : Nat → List Char → Option (List Char)
  | 0, _ => some []
  | _ + 1, [] => none
  | room + 1, c :: stdin => if c = '\n' then some [] else (readLine room stdin).map (c :: ·)

/-- `sscanf(text, "%d", &value)` as glibc runs it: white space, an optional sign and at least one
digit, converted by `strtol` and stored in the `int`; `none` when no digit follows. -/
def scanInt (text : List Char) : Option Int :=
  if ((dropSign (text.dropWhile isCSpace)).takeWhile Char.isDigit).isEmpty then none
  else some (atoi (String.mk text))

/-- `get_thread_count_input(resources)` from what `read()` delivers on standard input: the count
it returns and the update message it leaves. `input_buffer` is a C string, so `sscanf` sees the
line up to its first NUL. -/
def getThreadCountInput (resources : SystemResources) (stdin : List Char) : Int × Option String :=
  match readLine 31 stdin with
  | none => (-1, some "Failed to read input - thread count unchanged")
  | some line =>
    match scanInt (line.takeWhile (· ≠ '\x00')) with
    | none => (-1, some "Invalid input - thread count unchanged")
    | some threadCount =>
      if threadCount < 1 then (-1, some "Invalid thread count (minimum 1)")
      else if threadCount > Int.bmod resources.cpuCores (2 ^ 32) then
        (threadCount, some ("Warning: " ++ toString threadCount ++ " threads exceeds " ++
          toString resources.cpuCores ++ " CPU cores"))
      else (threadCount, none)

/-! ## A count typed in decimal -/

/-- A line with no newline in it, then a newline, is read whole when it fits the buffer. -/
theorem readLine_line {line : List Char} (rest : List Char) {room : Nat}
    (fits : line.length ≤ room) (noNewline : ∀ c ∈ line, c ≠ '\n') :
    readLine room (line ++ '\n' :: rest) = some line := by
  induction line generalizing room with
  | nil => cases room <;> rfl
  | cons c line induction =>
    obtain ⟨room, rfl⟩ : ∃ room', room = room' + 1 := ⟨room - 1, by simp at fits; omega⟩
    show readLine (room + 1) (c :: (line ++ '\n' :: rest)) = _
    simp only [readLine, noNewline c (List.mem_cons_self c line), ↓reduceIte,
      induction (by simpa using fits) fun c mem => noNewline c (List.mem_cons_of_mem _ mem),
      Option.map_some']

theorem decimalValue_append_digit (digits : List Char) (digit : Char) :
    decimalValue (digits ++ [digit]) = 10 * decimalValue digits + (digit.toNat - '0'.toNat) := by
  simp [decimalValue]

/-- A digit is neither white space nor a sign, a newline or a NUL. -/
theorem isDigit_plain {c : Char} (digit : c.isDigit = true) :
    isCSpace c = false ∧ c ≠ '-' ∧ c ≠ '+' ∧ c ≠ '\n' ∧ c ≠ '\x00' := by
  refine ⟨?_, ?_, ?_, ?_, ?_⟩
  · unfold isCSpace
    simp only [decide_eq_false_iff_not]
    rintro (rfl | rfl | rfl | rfl | rfl | rfl) <;> exact absurd digit (by decide)
  all_goals rintro rfl; exact absurd digit (by decide)

/-- `Nat.digitChar` below ten is the digit of that value. -/
theorem digitChar_decimal : ∀ d < 10,
    (Nat.digitChar d).isDigit = true ∧ (Nat.digitChar d).toNat - '0'.toNat = d := by
  decide

/-- What `toString` prints for a number: digits, whose value is the number. -/
theorem toDigitsCore_decimal (fuel n : Nat) (acc : List Char) (enough : n < fuel) :
    ∃ digits, Nat.toDigitsCore 10 fuel n acc = digits ++ acc ∧ digits ≠ [] ∧
      (∀ c ∈ digits, c.isDigit = true) ∧ decimalValue digits = n := by
  induction fuel generalizing n acc with
  | zero => omega
  | succ fuel induction =>
    have last := digitChar_decimal (n % 10) (Nat.mod_lt n (by decide))
    simp only [Nat.toDigitsCore]
    split
    · refine ⟨[Nat.digitChar (n % 10)], rfl, List.cons_ne_nil _ _, by simp [last.1], ?_⟩
      simp only [decimalValue, List.foldl_cons, List.foldl_nil, last.2]
      omega
    · obtain ⟨digits, eq, nonempty, all, value⟩ :=
        induction (n / 10) (Nat.digitChar (n % 10) :: acc) (by omega)
      refine ⟨digits ++ [Nat.digitChar (n % 10)], by simp [eq], by simp, fun c mem => ?_, ?_⟩
      · exact (List.mem_append.mp mem).elim (all c) fun mem => List.mem_singleton.mp mem ▸ last.1
      · rw [decimalValue_append_digit, value, last.2]
        exact Nat.div_add_mod n 10

theorem toString_decimal (n : Nat) :
    (toString n).toList ≠ [] ∧ (∀ c ∈ (toString n).toList, c.isDigit = true) ∧
      decimalValue (toString n).toList = n := by
  obtain ⟨digits, eq, nonempty, all, value⟩ := toDigitsCore_decimal (n + 1) n [] (by omega)
  have printed : (toString n).toList = digits := by
    simpa using eq
  exact printed ▸ ⟨nonempty, all, value⟩

theorem toString_length {n : Nat} (fits : n < 2 ^ 63) : (toString n).toList.length ≤ 31 :=
  show (Nat.toDigitsCore 10 (n + 1) n []).length ≤ 31 from
    Nat.toDigitsCore_length 10 (by decide) (n + 1) n 31 (lt_of_lt_of_le fits (by decide))
      (by decide)

theorem dropSign_cons {c : Char} (rest : List Char) (minus : c ≠ '-') (plus : c ≠ '+') :
    dropSign (c :: rest) = c :: rest := by
  unfold dropSign
  split <;> simp_all

/-- `strtol` reads a run of digits as its value, clamped at `LONG_MAX`. -/
theorem strtol10_digits {digits : List Char} (all : ∀ c ∈ digits, c.isDigit = true) :
    strtol10 (String.mk digits) = min (decimalValue digits : Int) (2 ^ 63 - 1) := by
  cases digits with
  | nil => rfl
  | cons c digits =>
    have plain := isDigit_plain (all c (List.mem_cons_self c digits))
    simp only [strtol10, String.toList, List.dropWhile_cons, plain.1, Bool.false_eq_true,
      ↓reduceIte, List.head?_cons, Option.some.injEq, plain.2.1,
      dropSign_cons _ plain.2.1 plain.2.2.1, List.takeWhile_eq_self_iff.mpr all]

/-- `sscanf("%d")` on a run of digits converts it as `atoi` does. -/
theorem scanInt_digits {digits : List Char} (nonempty : digits ≠ [])
    (all : ∀ c ∈ digits, c.isDigit = true) : scanInt digits = some (atoi (String.mk digits)) := by
  obtain ⟨c, rest, rfl⟩ := List.exists_cons_of_ne_nil nonempty
  have plain := isDigit_plain (all c (List.mem_cons_self c rest))
  simp [scanInt, plain.1, dropSign_cons _ plain.2.1 plain.2.2.1, List.takeWhile_eq_self_iff.mpr all]

/-- A count typed in decimal and ended by a newline is read as glibc converts it: the number
itself when an `int` holds it, beyond that its low 32 bits as an `int`, and `-1` when those are
not positive. -/
theorem getThreadCountInput_decimal (resources : SystemResources) {n : Nat} (fits : n < 2 ^ 63)
    (rest : List Char) :
    (getThreadCountInput resources ((toString n).toList ++ '\n' :: rest)).1 =
      if 1 ≤ Int.bmod n (2 ^ 32) then Int.bmod n (2 ^ 32) else -1 := by
  obtain ⟨nonempty, all, value⟩ := toString_decimal n
  have line := readLine_line rest (toString_length fits) fun c mem =>
    (isDigit_plain (all c mem)).2.2.2.1
  have whole : (toString n).toList.takeWhile (· ≠ '\x00') = (toString n).toList :=
    List.takeWhile_eq_self_iff.mpr fun c mem => by simpa using (isDigit_plain (all c mem)).2.2.2.2
  have converted : atoi (String.mk (toString n).toList) = Int.bmod n (2 ^ 32) := by
    rw [atoi, strtol10_digits all, value, min_eq_left (by omega)]
  simp only [getThreadCountInput, line, whole, scanInt_digits nonempty all, converted]
  split_ifs <;> omega

theorem getThreadCountInput_decimal_wraps :
    4294967297 < 2 ^ 63 ∧
      (getThreadCountInput ⟨8, 16384, 8192, 8⟩ ((toString 4294967297).toList ++ ['\n'])).1 = 1 :=
  ⟨by decide, (@getThreadCountInput_decimal ⟨8, 16384, 8192, 8⟩ 4294967297 (by decide) []).trans
    (by decide)⟩

end JunoMiner
