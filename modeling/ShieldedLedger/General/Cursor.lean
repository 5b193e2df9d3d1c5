import ShieldedLedger.General.Bytes

/-!
# Reading bytes with a cursor

A reader consumes bytes from the front of its input and may fail.  The rules
below turn a successful run into the list of parts it consumed, one reader at a
time, and follow the one error with which a reader can fail.
-/

namespace Cursor

/-- A reader is given the bytes after the cursor. -/
abbrev Reader (ε : Type) := StateT (List UInt8) (Except ε)

variable {ε α β : Type}

/-- Take the next `size` bytes, or fail when there are fewer. -/
def take (short : ε) (size : ℕ) : Reader ε (Bytes.Array size) := fun input =>
  if enough : size ≤ input.length then
    .ok (⟨input.take size, List.length_take_of_le enough⟩, input.drop size)
  else .error short

/-- Fail unless a condition holds. -/
def ensure (error : ε) (condition : Bool) : Reader ε Unit := fun input =>
  if condition then .ok ((), input) else .error error

/-! ## Successful runs -/

theorem bind_eq_ok {reader : Reader ε α} {next : α → Reader ε β} {input rest : List UInt8}
    {result : β} :
    (reader >>= next) input = .ok (result, rest) ↔
      ∃ value middle, reader input = .ok (value, middle) ∧
        next value middle = .ok (result, rest) := by
  change (reader input).bind (fun read => next read.1 read.2) = _ ↔ _
  cases reader input with
  | error error => simp [Except.bind]
  | ok read => simp [Except.bind, Prod.ext_iff]

theorem take_eq_ok {short : ε} {size : ℕ} {input rest : List UInt8} {part : Bytes.Array size} :
    take short size input = .ok (part, rest) ↔ input = part.toList ++ rest := by
  rw [take]
  constructor
  · intro read
    split at read
    · obtain ⟨rfl, rfl⟩ := Prod.mk.inj (Except.ok.inj read)
      exact (List.take_append_drop size input).symm
    · cases read
  · rintro rfl
    have enough : size ≤ (part.toList ++ rest).length := by simp
    rw [dif_pos enough]
    congr 2
    · apply List.Vector.eq
      exact List.take_left' part.toList_length
    · exact List.drop_left' part.toList_length

theorem ensure_eq_ok {error : ε} {condition : Bool} {input rest : List UInt8} {result : Unit} :
    ensure error condition input = .ok (result, rest) ↔ condition = true ∧ input = rest := by
  cases condition <;> simp [ensure]

theorem pure_eq_ok {value result : α} {input rest : List UInt8} :
    (pure value : Reader ε α) input = .ok (result, rest) ↔ value = result ∧ input = rest := by
  change Except.ok (value, input) = _ ↔ _
  simp

theorem lift_eq_ok {computed : Except ε α} {result : α} {input rest : List UInt8} :
    (liftM computed : Reader ε α) input = .ok (result, rest) ↔
      computed = .ok result ∧ input = rest := by
  change computed.bind (fun value => .ok (value, input)) = _ ↔ _
  cases computed <;> simp [Except.bind]

/-! ## Running along known parts -/

theorem bind_take (short : ε) {size : ℕ} (next : Bytes.Array size → Reader ε β)
    (part : Bytes.Array size) (rest : List UInt8) :
    (take short size >>= next) (part.toList ++ rest) = next part rest := by
  change (take short size (part.toList ++ rest)).bind (fun read => next read.1 read.2) = _
  rw [take_eq_ok.mpr rfl]
  rfl

theorem bind_ensure (error : ε) (condition : Bool) (next : Unit → Reader ε β)
    (input : List UInt8) :
    (ensure error condition >>= next) input =
      if condition then next () input else .error error := by
  cases condition <;> rfl

theorem bind_lift (computed : Except ε α) (next : α → Reader ε β) (input : List UInt8) :
    ((liftM computed : Reader ε α) >>= next) input =
      computed.bind fun value => next value input := by
  cases computed <;> rfl

/-! ## The error of a failing run -/

/-- Whenever the reader fails, it fails with this error. -/
def FailsWith (error : ε) (reader : Reader ε α) : Prop :=
  ∀ input failure, reader input = .error failure → failure = error

theorem FailsWith.bind {error : ε} {reader : Reader ε α} {next : α → Reader ε β}
    (first : FailsWith error reader) (later : ∀ value, FailsWith error (next value)) :
    FailsWith error (reader >>= next) := by
  intro input failure failed
  change (reader input).bind (fun read => next read.1 read.2) = _ at failed
  cases read : reader input with
  | error earlier =>
      rw [read] at failed
      exact first input failure (read.trans (congrArg Except.error (Except.error.inj failed)))
  | ok result =>
      rw [read] at failed
      exact later result.1 result.2 failure failed

theorem failsWith_take (short : ε) (size : ℕ) : FailsWith short (take short size) := by
  intro input failure failed
  rw [take] at failed
  split at failed
  · cases failed
  · exact (Except.error.inj failed).symm

theorem failsWith_ensure (error : ε) (condition : Bool) :
    FailsWith error (ensure error condition) := by
  intro input failure failed
  cases condition with
  | true => cases failed
  | false => exact (Except.error.inj failed).symm

theorem failsWith_pure (error : ε) (value : α) : FailsWith error (pure value : Reader ε α) := by
  intro input failure failed
  cases failed

theorem failsWith_lift {error : ε} {computed : Except ε α}
    (only : ∀ failure, computed = .error failure → failure = error) :
    FailsWith error (liftM computed : Reader ε α) := by
  intro input failure failed
  cases computed with
  | ok value => cases failed
  | error earlier => exact only failure (congrArg Except.error (Except.error.inj failed))

/-- There are enough bytes for the next part. -/
theorem exists_part (input : List UInt8) (size : ℕ) (enough : size ≤ input.length) :
    ∃ (part : Bytes.Array size) (rest : List UInt8), input = part.toList ++ rest ∧
      rest.length = input.length - size :=
  ⟨⟨input.take size, List.length_take_of_le enough⟩, input.drop size,
    (List.take_append_drop size input).symm, List.length_drop⟩

end Cursor
