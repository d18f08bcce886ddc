import Mathlib

/-! Fixed-width big-endian integers, laid out as `byteorder` writes them with
`write_u64::<BE>` and `write_i64::<BE>`: an unsigned value modulo
`256 ^ width`, most significant byte first, and a signed 64-bit value in two's
complement.  Decoding the encoding gives the value back, and decoding reads no
further than its width, so an encoding can be followed by anything. -/

namespace BigEndian

/-- The first `count` bytes and the rest, when there are that many. -/
def takeBytes (count : Nat) (bytes : List UInt8) : Option (List UInt8 × List UInt8) :=
  if count ≤ bytes.length then some (bytes.take count, bytes.drop count) else none

theorem takeBytes_append {front rest : List UInt8} {count : Nat} (width : front.length = count) :
    takeBytes count (front ++ rest) = some (front, rest) := by
  subst width
  simp [takeBytes]

theorem takeBytes_eq_some {count : Nat} {bytes front rest : List UInt8}
    (taken : takeBytes count bytes = some (front, rest)) :
    bytes = front ++ rest ∧ front.length = count := by
  unfold takeBytes at taken
  split at taken
  · next enough =>
      obtain ⟨rfl, rfl⟩ := Prod.mk.inj (Option.some.inj taken)
      exact ⟨(List.take_append_drop count bytes).symm, by simp [enough]⟩
  · cases taken

/-- The low `width` bytes of `n`, most significant first. -/
def encode : Nat → Nat → List UInt8
  | 0, _ => []
  | width + 1, n => encode width (n / 256) ++ [UInt8.ofNat n]

/-- The number the bytes spell, most significant first. -/
def decode (bytes : List UInt8) : Nat :=
  bytes.foldl (fun value byte => value * 256 + byte.toNat) 0

@[simp] theorem length_encode (width n : Nat) : (encode width n).length = width := by
  induction width generalizing n with
  | zero => rfl
  | succ width ih => simp [encode, ih]

theorem decode_append_byte (bytes : List UInt8) (byte : UInt8) :
    decode (bytes ++ [byte]) = decode bytes * 256 + byte.toNat := by
  simp [decode, List.foldl_append]

theorem decode_encode (width n : Nat) : decode (encode width n) = n % 256 ^ width := by
  induction width generalizing n with
  | zero => simp [encode, decode, Nat.mod_one]
  | succ width ih =>
      have lowByte : (UInt8.ofNat n).toNat = n % 256 := by simp
      -- the low byte comes last; the higher ones spell `n / 256`
      calc decode (encode (width + 1) n)
          = n / 256 % 256 ^ width * 256 + n % 256 := by
            rw [encode, decode_append_byte, ih, lowByte]
        _ = n % (256 * 256 ^ width) := by rw [Nat.mod_mul]; ring
        _ = n % 256 ^ (width + 1) := by rw [pow_succ']

/-- A value that fits in `width` bytes is read back whole. -/
theorem decode_encode_of_lt {width n : Nat} (fits : n < 256 ^ width) :
    decode (encode width n) = n := by
  rw [decode_encode, Nat.mod_eq_of_lt fits]

/-- The eight bytes of a signed 64-bit value, in two's complement. -/
def encodeI64 (value : Int) : List UInt8 :=
  encode 8 (value % 2 ^ 64).toNat

/-- The signed 64-bit value eight bytes spell in two's complement. -/
def decodeI64 (bytes : List UInt8) : Int :=
  if decode bytes < 2 ^ 63 then decode bytes else decode bytes - 2 ^ 64

@[simp] theorem length_encodeI64 (value : Int) : (encodeI64 value).length = 8 :=
  length_encode 8 _

theorem decodeI64_encodeI64 {value : Int} (low : -2 ^ 63 ≤ value) (high : value < 2 ^ 63) :
    decodeI64 (encodeI64 value) = value := by
  have unsigned : decode (encodeI64 value) = (value % 2 ^ 64).toNat := by
    apply decode_encode_of_lt
    have : (value % 2 ^ 64).toNat < 2 ^ 64 := by omega
    simpa using this
  unfold decodeI64
  rw [unsigned]
  split <;> omega

end BigEndian
