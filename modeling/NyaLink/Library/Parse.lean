import Mathlib.Algebra.Group.Nat.Defs
import Mathlib.Data.List.Basic

/-!
# Parsers of byte strings

A parser takes bytes off the front of its input, or fails.  `Reads` says that a
parser turns some bytes into a value whatever follows them; `Accepts` says so of
a whole input, which is all that a field running to the end of the input allows.
Numbers are read and written with their leading byte first.
-/

universe u

/-! ## Numbers -/

/-- The low `width` bytes of a number. -/
def beBytes : Nat → Nat → List UInt8
  | 0, _ => []
  | width + 1, value => UInt8.ofNat (value / 256 ^ width) :: beBytes width value

def beValue : List UInt8 → Nat
  | [] => 0
  | byte :: rest => byte.toNat * 256 ^ rest.length + beValue rest

@[simp]
theorem length_beBytes (width value : Nat) : (beBytes width value).length = width := by
  induction width with
  | zero => rfl
  | succ width inductionHypothesis => rw [beBytes, List.length_cons, inductionHypothesis]

theorem beValue_beBytes (width value : Nat) :
    beValue (beBytes width value) = value % 256 ^ width := by
  induction width with
  | zero => rw [beBytes, beValue, Nat.pow_zero, Nat.mod_one]
  | succ width inductionHypothesis =>
      have leading : (UInt8.ofNat (value / 256 ^ width)).toNat = value / 256 ^ width % 256 :=
        UInt8.toNat_ofNat'
      rw [beBytes, beValue, length_beBytes, inductionHypothesis, leading, Nat.mod_pow_succ,
        Nat.mul_comm, Nat.add_comm]

theorem beValue_beBytes_of_lt {width value : Nat} (fits : value < 256 ^ width) :
    beValue (beBytes width value) = value := by
  rw [beValue_beBytes, Nat.mod_eq_of_lt fits]

theorem beValue_lt (bytes : List UInt8) : beValue bytes < 256 ^ bytes.length := by
  induction bytes with
  | nil => exact Nat.zero_lt_one
  | cons byte rest inductionHypothesis =>
      have leading : (byte.toNat + 1) * 256 ^ rest.length ≤ 256 * 256 ^ rest.length :=
        Nat.mul_le_mul_right _ (UInt8.toNat_lt byte)
      rw [Nat.add_mul, Nat.one_mul] at leading
      rw [beValue, List.length_cons, Nat.pow_succ, Nat.mul_comm (256 ^ rest.length)]
      omega

/-- Bytes of one length are told apart by the number they stand for. -/
theorem eq_of_beValue_eq {first second : List UInt8} (sameLength : first.length = second.length)
    (sameValue : beValue first = beValue second) : first = second := by
  induction first generalizing second with
  | nil => exact (List.length_eq_zero_iff.mp sameLength.symm).symm
  | cons byte rest inductionHypothesis =>
      cases second with
      | nil => cases sameLength
      | cons other more =>
          have lengths : rest.length = more.length := Nat.succ.inj sameLength
          have low : beValue rest < 256 ^ more.length := lengths ▸ beValue_lt rest
          rw [beValue, beValue, lengths] at sameValue
          have lowest := congrArg (· % 256 ^ more.length) sameValue
          simp only [Nat.mul_add_mod_of_lt low, Nat.mul_add_mod_of_lt (beValue_lt more)] at lowest
          have highest : byte.toNat * 256 ^ more.length = other.toNat * 256 ^ more.length := by
            omega
          have leading := Nat.eq_of_mul_eq_mul_right (Nat.pow_pos (by decide)) highest
          rw [UInt8.toNat_inj.mp leading, inductionHypothesis lengths lowest]

/-! ## Parsers -/

abbrev ByteParser (Error : Type u) (Value : Type) := StateT (List UInt8) (Except Error) Value

namespace ByteParser

variable {Error : Type u} {First Second : Type}

def Reads (parser : ByteParser Error First) (bytes : List UInt8) (value : First) : Prop :=
  ∀ suffix, parser.run (bytes ++ suffix) = .ok (value, suffix)

def Accepts (parser : ByteParser Error First) (bytes : List UInt8) (value : First) : Prop :=
  parser.run' bytes = .ok value

theorem accepts_of_run {parser : ByteParser Error First} {bytes left : List UInt8}
    {value : First} (run : parser.run bytes = .ok (value, left)) : parser.Accepts bytes value := by
  unfold Accepts
  rw [StateT.run'_eq, run]
  rfl

theorem Reads.accepts {parser : ByteParser Error First} {bytes : List UInt8} {value : First}
    (reads : parser.Reads bytes value) : parser.Accepts bytes value := by
  have run := reads []
  rw [List.append_nil] at run
  exact accepts_of_run run

theorem reads_pure (value : First) : (pure value : ByteParser Error First).Reads [] value :=
  fun _ => rfl

theorem accepts_pure (bytes : List UInt8) (value : First) :
    (pure value : ByteParser Error First).Accepts bytes value := rfl

theorem Reads.bind {parser : ByteParser Error First} {next : First → ByteParser Error Second}
    {bytes more : List UInt8} {value : First} {result : Second}
    (first : parser.Reads bytes value) (second : (next value).Reads more result) :
    (parser >>= next).Reads (bytes ++ more) result := by
  intro suffix
  rw [StateT.run_bind, List.append_assoc, first]
  exact second suffix

theorem Reads.bind_pure {parser : ByteParser Error First} {next : First → ByteParser Error Second}
    {bytes : List UInt8} {value : First} {result : Second} (first : parser.Reads bytes value)
    (ends : next value = pure result) : (parser >>= next).Reads bytes result := by
  have last : (next value).Reads [] result := by
    rw [ends]
    exact reads_pure result
  have reads := first.bind last
  rwa [List.append_nil] at reads

theorem Reads.map {parser : ByteParser Error First} {bytes : List UInt8} {value : First}
    (reads : parser.Reads bytes value) (change : First → Second) :
    (change <$> parser).Reads bytes (change value) := by
  intro suffix
  rw [StateT.run_map, reads]
  rfl

/-- The run behind a value, with the input it leaves. -/
theorem Accepts.exists_left {parser : ByteParser Error First} {bytes : List UInt8} {value : First}
    (accepts : parser.Accepts bytes value) : ∃ left, parser.run bytes = .ok (value, left) := by
  unfold Accepts at accepts
  rw [StateT.run'_eq] at accepts
  cases run : parser.run bytes with
  | error failure =>
      rw [run] at accepts
      cases accepts
  | ok read =>
      rw [run] at accepts
      obtain rfl : read.1 = value := Except.ok.inj accepts
      exact ⟨read.2, rfl⟩

theorem Accepts.bind {parser : ByteParser Error First} {next : First → ByteParser Error Second}
    {bytes more : List UInt8} {value : First} {result : Second}
    (first : parser.Reads bytes value) (second : (next value).Accepts more result) :
    (parser >>= next).Accepts (bytes ++ more) result := by
  unfold Accepts at second ⊢
  rw [StateT.run'_eq, StateT.run_bind, first]
  exact second

theorem Accepts.bind_pure {parser : ByteParser Error First}
    {next : First → ByteParser Error Second} {bytes : List UInt8} {value : First} {result : Second}
    (accepts : parser.Accepts bytes value) (ends : next value = pure result) :
    (parser >>= next).Accepts bytes result := by
  obtain ⟨left, run⟩ := accepts.exists_left
  unfold Accepts
  rw [StateT.run'_eq, StateT.run_bind, run]
  change Except.map Prod.fst ((next value).run left) = .ok result
  rw [ends]
  rfl

/-! ## Fields -/

/-- The next `count` bytes. -/
def take (short : Error) (count : Nat) : ByteParser Error (List UInt8) := fun input =>
  if count ≤ input.length then .ok (input.take count, input.drop count) else .error short

theorem reads_take (short : Error) {count : Nat} {bytes : List UInt8}
    (width : bytes.length = count) : (take short count).Reads bytes bytes := by
  intro suffix
  have within : count ≤ (bytes ++ suffix).length := by
    rw [List.length_append]
    omega
  have run : (take short count).run (bytes ++ suffix) =
      .ok ((bytes ++ suffix).take count, (bytes ++ suffix).drop count) := if_pos within
  rw [run, List.take_left' width, List.drop_left' width]

/-- A number of `width` bytes. -/
def number (short : Error) (width : Nat) : ByteParser Error Nat := beValue <$> take short width

theorem reads_number (short : Error) {width value : Nat} (fits : value < 256 ^ width) :
    (number short width).Reads (beBytes width value) value := by
  have reads := (reads_take short (length_beBytes width value)).map beValue
  rwa [beValue_beBytes_of_lt fits] at reads

/-- What is left of the input, which stays. -/
def rest : ByteParser Error (List UInt8) := get

theorem accepts_rest {next : List UInt8 → ByteParser Error Second} {bytes : List UInt8}
    {result : Second} (accepts : (next bytes).Accepts bytes result) :
    (rest >>= next).Accepts bytes result := accepts

def times (item : ByteParser Error First) : Nat → ByteParser Error (List First)
  | 0 => pure []
  | count + 1 => do
      let value ← item
      let values ← times item count
      pure (value :: values)

theorem reads_times {item : ByteParser Error First} (encode : First → List UInt8)
    (reads : ∀ value, item.Reads (encode value) value) (values : List First) :
    (times item values.length).Reads (values.flatMap encode) values := by
  induction values with
  | nil => exact reads_pure []
  | cons value values inductionHypothesis =>
      rw [List.flatMap_cons]
      exact (reads value).bind (inductionHypothesis.bind_pure rfl)

/-! ## What a parser returns -/

/-- Whatever the input is, a value the parser returns has the property. -/
def Ensures (parser : ByteParser Error First) (holds : First → Prop) : Prop :=
  ∀ input value left, parser.run input = .ok (value, left) → holds value

theorem Ensures.of_accepts {parser : ByteParser Error First} {holds : First → Prop}
    (ensures : parser.Ensures holds) {bytes : List UInt8} {value : First}
    (accepts : parser.Accepts bytes value) : holds value := by
  obtain ⟨left, run⟩ := accepts.exists_left
  exact ensures bytes value left run

theorem ensures_any (parser : ByteParser Error First) : parser.Ensures fun _ => True :=
  fun _ _ _ _ => trivial

theorem ensures_pure {value : First} {holds : First → Prop} (held : holds value) :
    (pure value : ByteParser Error First).Ensures holds := by
  intro input read left run
  cases run
  exact held

theorem ensures_throw (failure : Error) (holds : First → Prop) :
    (throw failure : ByteParser Error First).Ensures holds := by
  intro input read left run
  cases run

theorem Ensures.bind {parser : ByteParser Error First} {next : First → ByteParser Error Second}
    {middle : First → Prop} {holds : Second → Prop} (first : parser.Ensures middle)
    (second : ∀ value, middle value → (next value).Ensures holds) :
    (parser >>= next).Ensures holds := by
  intro input result left run
  rw [StateT.run_bind] at run
  cases earlier : parser.run input with
  | error failure =>
      rw [earlier] at run
      cases run
  | ok read =>
      rw [earlier] at run
      exact second read.1 (first input read.1 read.2 earlier) read.2 result left run

theorem Ensures.skip {parser : ByteParser Error First} {next : First → ByteParser Error Second}
    {holds : Second → Prop} (second : ∀ value, (next value).Ensures holds) :
    (parser >>= next).Ensures holds :=
  (ensures_any parser).bind fun value _ => second value

theorem ensures_take (short : Error) (count : Nat) :
    (take short count).Ensures fun bytes => bytes.length = count := by
  intro input bytes left run
  by_cases within : count ≤ input.length
  · have taken : (take short count).run input = .ok (input.take count, input.drop count) :=
      if_pos within
    cases taken.symm.trans run
    exact List.length_take_of_le within
  · have refused : (take short count).run input = .error short := if_neg within
    cases refused.symm.trans run

theorem ensures_times (item : ByteParser Error First) (count : Nat) :
    (times item count).Ensures fun values => values.length = count := by
  induction count with
  | zero => exact ensures_pure rfl
  | succ count inductionHypothesis =>
      refine Ensures.skip fun value => inductionHypothesis.bind fun values long => ?_
      exact ensures_pure (congrArg (· + 1) long)

/-! ## Input that ends too soon -/

/-- Cut short anywhere but at a length from `low` to below `high`, the bytes are refused. -/
def Truncates (failure : Error) (parser : ByteParser Error First) (bytes : List UInt8)
    (low high : Nat) : Prop :=
  ∀ n < bytes.length, n < low ∨ high ≤ n → parser.run (bytes.take n) = .error failure

section

variable {failure : Error} {parser : ByteParser Error First}
  {next : First → ByteParser Error Second} {bytes more : List UInt8} {low high : Nat}

theorem Truncates.whole (truncates : Truncates failure parser bytes low low) :
    Truncates failure parser bytes 0 0 :=
  fun n short _ => truncates n short (Nat.lt_or_ge n low)

theorem run_bind_of_error {input : List UInt8} (refused : parser.run input = .error failure) :
    (parser >>= next).run input = .error failure := by
  rw [StateT.run_bind, refused]
  rfl

theorem Truncates.bind_last (truncates : Truncates failure parser bytes low high) :
    Truncates failure (parser >>= next) bytes low high :=
  fun n short outside => run_bind_of_error (truncates n short outside)

theorem Truncates.map (truncates : Truncates failure parser bytes low high)
    (change : First → Second) : Truncates failure (change <$> parser) bytes low high := by
  intro n short outside
  rw [StateT.run_map, truncates n short outside]
  rfl

theorem Truncates.bind {value : First} (first : Truncates failure parser bytes 0 0)
    (reads : parser.Reads bytes value)
    (second : Truncates failure (next value) more low high) :
    Truncates failure (parser >>= next) (bytes ++ more) (bytes.length + low)
      (bytes.length + high) := by
  intro n short outside
  rw [List.take_append]
  by_cases inFirst : n < bytes.length
  · have none_left : n - bytes.length = 0 := by omega
    rw [none_left, List.take_zero, List.append_nil]
    exact run_bind_of_error (first n inFirst (.inr (Nat.zero_le n)))
  · rw [List.take_of_length_le (by omega), StateT.run_bind, reads]
    rw [List.length_append] at short
    exact second (n - bytes.length) (by omega) (by omega)

theorem truncates_take (short : Error) {count : Nat} (width : bytes.length = count) :
    Truncates short (take short count) bytes 0 0 := by
  intro n cut _
  have few : ¬ count ≤ (bytes.take n).length := by
    rw [List.length_take]
    omega
  exact if_neg few

theorem truncates_number (short : Error) {width : Nat} (long : bytes.length = width) :
    Truncates short (number short width) bytes 0 0 :=
  (truncates_take short long).map beValue

theorem truncates_times {item : ByteParser Error First} (encode : First → List UInt8)
    (reads : ∀ value, item.Reads (encode value) value)
    (truncates : ∀ value, Truncates failure item (encode value) 0 0) (values : List First) :
    Truncates failure (times item values.length) (values.flatMap encode) 0 0 := by
  induction values with
  | nil => exact fun n short _ => absurd short (Nat.not_lt_zero n)
  | cons value values inductionHypothesis =>
      rw [List.flatMap_cons]
      exact ((truncates value).bind (reads value) inductionHypothesis.bind_last).whole

end

end ByteParser
