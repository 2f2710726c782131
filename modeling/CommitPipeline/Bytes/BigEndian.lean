/-!
# Byte strings and big-endian numbers

`BigEndian.encode` writes a number into a fixed width, most significant byte first, and
`BigEndian.decode` reads it back. On strings of the width the two are inverse to each other:
numbers below `BigEndian.capacity` and strings of the width correspond.
-/

namespace CommitPipeline

/-- A string of bytes. -/
abbrev Bytes := List UInt8

namespace BigEndian

/-- The lowest `width` bytes of a number, the most significant one first. -/
def encode : (width : Nat) → Nat → Bytes
  | 0, _ => []
  | width + 1, n => encode width (n / 256) ++ [UInt8.ofNat n]

/-- The number a byte string writes. -/
def decode (bytes : Bytes) : Nat := bytes.foldl (fun n b => n * 256 + b.toNat) 0

/-- How many byte strings of a width there are. -/
def capacity : (width : Nat) → Nat
  | 0 => 1
  | width + 1 => 256 * capacity width

/-- A number is written with as many bytes as asked for. -/
@[simp]
theorem length_encode (width n : Nat) : (encode width n).length = width := by
  induction width generalizing n with
  | zero => rfl
  | succ width ih => simp [encode, ih]

/-- The last byte is the lowest one. -/
@[simp]
theorem decode_append_singleton (bytes : Bytes) (b : UInt8) :
    decode (bytes ++ [b]) = decode bytes * 256 + b.toNat := by
  simp [decode]

/-- Bytes are read as a number that fits into them. -/
theorem decode_lt (bytes : Bytes) : decode bytes < capacity bytes.length := by
  rw [← List.reverse_reverse bytes]
  induction bytes.reverse with
  | nil => decide
  | cons b rest ih =>
    have := b.toNat_lt
    rw [List.reverse_cons, decode_append_singleton, List.length_append, List.length_singleton,
      capacity]
    omega

/-- A number is read back but for what does not fit into the bytes. -/
theorem decode_encode (width n : Nat) : decode (encode width n) = n % capacity width := by
  induction width generalizing n with
  | zero => simp [encode, decode, capacity, Nat.mod_one]
  | succ width ih =>
    have hbyte : (UInt8.ofNat n).toNat = n % 256 := by simp
    rw [encode, decode_append_singleton, ih, hbyte, capacity, Nat.mod_mul]
    omega

/-- A number that fits is read back. -/
theorem decode_encode_of_lt {width n : Nat} (h : n < capacity width) :
    decode (encode width n) = n := by
  rw [decode_encode, Nat.mod_eq_of_lt h]

/-- Bytes are written back from the number they are read as. -/
theorem encode_decode (bytes : Bytes) : encode bytes.length (decode bytes) = bytes := by
  rw [← List.reverse_reverse bytes]
  induction bytes.reverse with
  | nil => rfl
  | cons b rest ih =>
    have hb := b.toNat_lt
    have hdiv : (decode rest.reverse * 256 + b.toNat) / 256 = decode rest.reverse := by omega
    have hmod : UInt8.ofNat (decode rest.reverse * 256 + b.toNat) = b := by
      apply UInt8.toNat_inj.mp
      simp only [UInt8.toNat_ofNat']
      omega
    rw [List.reverse_cons, List.length_append, List.length_singleton, encode,
      decode_append_singleton, hdiv, ih, hmod]

/-- The eight bytes of a 64-bit word. -/
def ofWord (w : UInt64) : Bytes := encode 8 w.toNat

/-- A word takes eight bytes. -/
@[simp]
theorem length_ofWord (w : UInt64) : (ofWord w).length = 8 := length_encode 8 _

/-- A word is read back from its bytes. -/
theorem decode_ofWord (w : UInt64) : decode (ofWord w) = w.toNat :=
  decode_encode_of_lt w.toNat_lt

/-- Words with the same bytes are the same. -/
theorem ofWord_inj {v w : UInt64} : ofWord v = ofWord w ↔ v = w := by
  constructor
  · intro h
    apply UInt64.toNat_inj.mp
    rw [← decode_ofWord v, ← decode_ofWord w, h]
  · rintro rfl; rfl

end BigEndian

end CommitPipeline
