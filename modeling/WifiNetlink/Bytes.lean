/-!
# Byte strings, little-endian numbers and alignment

Messages are lists of bytes. Numbers on the wire are little-endian, and records start on four-byte
boundaries. Main statements: a number read back from its `width` bytes is the number modulo
256 to the power of `width`, wherever they stand, and every byte string is the writing of the number
it reads as.
-/

namespace WifiNetlink

/-- A byte string, first byte first. -/
abbrev Bytes := List UInt8

namespace Bytes

/-- The low `width` bytes of `n`, least significant first. -/
def ofNat : (width : Nat) → (n : Nat) → Bytes
  | 0, _ => []
  | width + 1, n => UInt8.ofNat n :: ofNat width (n / 256)

/-- The number whose bytes, least significant first, are `bytes`. -/
def toNat : Bytes → Nat
  | [] => 0
  | b :: rest => b.toNat + 256 * toNat rest

@[simp] theorem length_ofNat (width n : Nat) : (ofNat width n).length = width := by
  induction width generalizing n with
  | zero => rfl
  | succ width ih => simp [ofNat, ih]

/-- Reading back what was written keeps the number modulo 256 to the power of `width`. -/
theorem toNat_ofNat (width n : Nat) : toNat (ofNat width n) = n % Nat.pow 256 width := by
  induction width generalizing n with
  | zero => simp [ofNat, toNat, Nat.mod_one]
  | succ width ih =>
    have byte : (UInt8.ofNat n).toNat = n % 256 := by simp
    rw [ofNat, toNat, ih, byte, Nat.pow_eq, Nat.pow_eq, Nat.pow_succ,
      Nat.mul_comm (256 ^ width) 256, Nat.mod_mul]

/-- Writing back what was read keeps the bytes. -/
theorem ofNat_toNat (bytes : Bytes) : ofNat bytes.length (toNat bytes) = bytes := by
  induction bytes with
  | nil => rfl
  | cons b rest ih =>
    have hb := b.toNat_lt
    have hq : (b.toNat + 256 * toNat rest) / 256 = toNat rest := by omega
    have hr : UInt8.ofNat (b.toNat + 256 * toNat rest) = b := by
      apply UInt8.toNat_inj.mp
      simp only [UInt8.toNat_ofNat']
      omega
    simp only [List.length_cons, ofNat, toNat, hq, hr, ih]

/-- A byte string reads as a number below `256` to its length. -/
theorem toNat_lt (bytes : Bytes) : toNat bytes < Nat.pow 256 bytes.length := by
  have h := toNat_ofNat bytes.length (toNat bytes)
  rw [ofNat_toNat] at h
  rw [h]
  exact Nat.mod_lt _ (Nat.pow_pos (by decide))

/-- The bytes from `start` on, `count` of them at most, read as a number. -/
def natAt (bytes : Bytes) (start count : Nat) : Nat :=
  toNat ((bytes.drop start).take count)

/-- What is read beyond the first of two byte strings is read in the second. -/
theorem natAt_append_of_le {a : Bytes} {start : Nat} (b : Bytes) (count : Nat)
    (h : a.length ≤ start) : natAt (a ++ b) start count = natAt b (start - a.length) count := by
  rw [natAt, natAt, List.drop_append, List.drop_eq_nil_of_le h, List.nil_append]

/-- What is read within the first of two byte strings does not depend on the second. -/
theorem natAt_append_of_add_le {a : Bytes} {start count : Nat} (b : Bytes)
    (h : start + count ≤ a.length) : natAt (a ++ b) start count = natAt a start count := by
  have hs : start ≤ a.length := by omega
  have hc : count ≤ (a.drop start).length := by
    rw [List.length_drop]
    omega
  rw [natAt, natAt, List.drop_append_of_le_length hs, List.take_append_of_le_length hc]

/-- A number at the start reads back, modulo 256 to the power of its width. -/
theorem natAt_ofNat_append (width n : Nat) (rest : Bytes) :
    natAt (ofNat width n ++ rest) 0 width = n % Nat.pow 256 width := by
  rw [natAt, List.drop_zero, List.take_left' (length_ofNat width n), toNat_ofNat]

/-- Writing back what was read at a place keeps the bytes there. -/
theorem ofNat_natAt {bytes : Bytes} {start count : Nat} (h : start + count ≤ bytes.length) :
    ofNat count (natAt bytes start count) = (bytes.drop start).take count := by
  have hl : ((bytes.drop start).take count).length = count := by
    rw [List.length_take, List.length_drop]
    omega
  have hw := ofNat_toNat ((bytes.drop start).take count)
  rwa [hl] at hw

/-- A number read from so many bytes fits them. -/
theorem natAt_lt (bytes : Bytes) (start count : Nat) :
    natAt bytes start count < Nat.pow 256 count := by
  have hlt := toNat_lt ((bytes.drop start).take count)
  have hle : Nat.pow 256 ((bytes.drop start).take count).length ≤ Nat.pow 256 count :=
    Nat.pow_le_pow_right (by decide) (by rw [List.length_take]; exact Nat.min_le_left _ _)
  exact Nat.lt_of_lt_of_le hlt hle

/-- The two characters of a byte in base sixteen, lower case. -/
def hexByte (b : UInt8) : List Char :=
  [Nat.digitChar (b.toNat / 16), Nat.digitChar (b.toNat % 16)]

/-- A byte string in base sixteen, lower case. -/
def hex (bytes : Bytes) : String :=
  String.ofList (bytes.flatMap hexByte)

/-- The value of a digit in base sixteen, of either case. -/
def digit? (c : Char) : Option Nat :=
  if '0' ≤ c ∧ c ≤ '9' then some (c.toNat - '0'.toNat)
  else if 'a' ≤ c ∧ c ≤ 'f' then some (c.toNat - 'a'.toNat + 10)
  else if 'A' ≤ c ∧ c ≤ 'F' then some (c.toNat - 'A'.toNat + 10)
  else none

/-- The byte of two digits. -/
def byte? (high low : Char) : Option UInt8 := do
  return UInt8.ofNat ((← digit? high) * 16 + (← digit? low))

/-- The bytes of pairs of digits, after those read before, the last of which comes first. -/
def ofHexAfter? : List Char → (before : Bytes) → Option Bytes
  | [], before => some before.reverse
  | [_], _ => none
  | high :: low :: rest, before =>
    match byte? high low with
    | none => none
    | some b => ofHexAfter? rest (b :: before)

/-- The byte string that pairs of digits in base sixteen write. -/
def ofHex? (text : String) : Option Bytes := ofHexAfter? text.toList []

end Bytes

/-- The least multiple of four not below `n`. -/
def align4 (n : Nat) : Nat := (n + 3) / 4 * 4

theorem le_align4 (n : Nat) : n ≤ align4 n := by
  unfold align4
  omega

theorem align4_mod (n : Nat) : align4 n % 4 = 0 := by
  unfold align4
  omega

/-- A byte string followed by the zeros that bring it to a four-byte boundary. -/
def Bytes.padded (bytes : Bytes) : Bytes :=
  bytes ++ List.replicate (align4 bytes.length - bytes.length) 0

@[simp] theorem Bytes.length_padded (bytes : Bytes) :
    bytes.padded.length = align4 bytes.length := by
  have h := le_align4 bytes.length
  simp only [Bytes.padded, List.length_append, List.length_replicate]
  omega

/-- Padding comes after a first part that ends on a boundary. -/
theorem Bytes.padded_append {a : Bytes} (b : Bytes) (h : a.length % 4 = 0) :
    (a ++ b).padded = a ++ b.padded := by
  have hl : align4 (a ++ b).length - (a ++ b).length = align4 b.length - b.length := by
    rw [List.length_append]
    unfold align4
    omega
  rw [padded, hl, padded, List.append_assoc]

end WifiNetlink
