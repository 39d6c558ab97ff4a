import WifiNetlink.Wire.Payload

/-!
# Texts read back

The bytes of a text are those of its characters, one after the other. The strict reader is between
two characters again after the bytes of each character, so that it reads a text from its bytes. Only
the zero character is written with a zero byte, so that every other text reads back from a payload
too, where the first zero byte ends it.
-/

namespace WifiNetlink.Utf8

/-- A byte between characters, by its number. -/
private theorem lead_of_ofNat {n : Nat} (h : n < 256) :
    Lead.of (UInt8.ofNat n) =
      if n < 0x80 then .char (Char.ofNat n)
      else if n < 0xC2 then .bad
      else if n ≤ 0xDF then .opens ⟨0x80, 0xBF, 1, n - 0xC0, 1⟩
      else if n = 0xE0 then .opens ⟨0xA0, 0xBF, 2, 0, 1⟩
      else if n = 0xED then .opens ⟨0x80, 0x9F, 2, 0xD, 1⟩
      else if n ≤ 0xEF then .opens ⟨0x80, 0xBF, 2, n - 0xE0, 1⟩
      else if n = 0xF0 then .opens ⟨0x90, 0xBF, 3, 0, 1⟩
      else if n ≤ 0xF3 then .opens ⟨0x80, 0xBF, 3, n - 0xF0, 1⟩
      else if n = 0xF4 then .opens ⟨0x80, 0x8F, 3, 4, 1⟩
      else .bad := by
  have hn : (UInt8.ofNat n).toNat = n := UInt8.toNat_ofNat_of_lt h
  simp only [Lead.of, UInt8.lt_iff_toNat_lt, UInt8.le_iff_toNat_le, ← UInt8.toNat_inj, hn]
  rfl

/-- The first of two bytes gives the bits above the lowest six. -/
private theorem lead_of_two {v : Nat} (hleast : 0x7F < v) (hmost : v ≤ 0x7FF) :
    Lead.of (UInt8.ofNat (v / 64 % 32 + 0xC0)) = .opens ⟨0x80, 0xBF, 1, v / 64, 1⟩ := by
  have hbits : v / 64 % 32 + 0xC0 - 0xC0 = v / 64 := by omega
  rw [lead_of_ofNat (by omega), if_neg (by omega), if_neg (by omega), if_pos (by omega), hbits]

/-- The first of three bytes gives the bits above the lowest twelve, and bounds that the second
byte keeps unless the number is too small for three bytes or no character has it. -/
private theorem lead_of_three {v : Nat} (hleast : 0x7FF < v) (hmost : v ≤ 0xFFFF)
    (hchar : v < 0xD800 ∨ 0xDFFF < v) :
    ∃ low high, Lead.of (UInt8.ofNat (v / 4096 % 16 + 0xE0)) = .opens ⟨low, high, 2, v / 4096, 1⟩ ∧
      low.toNat ≤ v / 64 % 64 + 0x80 ∧ v / 64 % 64 + 0x80 ≤ high.toNat := by
  rw [lead_of_ofNat (by omega), if_neg (by omega), if_neg (by omega), if_neg (by omega)]
  split
  · have hbits : v / 4096 = 0 := by omega
    exact ⟨0xA0, 0xBF, by rw [hbits], by simp; omega, by simp; omega⟩
  split
  · have hbits : v / 4096 = 0xD := by omega
    exact ⟨0x80, 0x9F, by rw [hbits], by simp, by simp; omega⟩
  · have hbits : v / 4096 % 16 + 0xE0 - 0xE0 = v / 4096 := by omega
    rw [if_pos (by omega), hbits]
    exact ⟨0x80, 0xBF, rfl, by simp, by simp; omega⟩

/-- The first of four bytes gives the bits above the lowest eighteen, and bounds that the second
byte keeps unless the number is too small for four bytes or no character has it. -/
private theorem lead_of_four {v : Nat} (hleast : 0xFFFF < v) (hmost : v < 0x110000) :
    ∃ low high,
      Lead.of (UInt8.ofNat (v / 262144 % 8 + 0xF0)) = .opens ⟨low, high, 3, v / 262144, 1⟩ ∧
      low.toNat ≤ v / 4096 % 64 + 0x80 ∧ v / 4096 % 64 + 0x80 ≤ high.toNat := by
  rw [lead_of_ofNat (by omega), if_neg (by omega), if_neg (by omega), if_neg (by omega),
    if_neg (by omega), if_neg (by omega), if_neg (by omega)]
  split
  · have hbits : v / 262144 = 0 := by omega
    exact ⟨0x90, 0xBF, by rw [hbits], by simp; omega, by simp; omega⟩
  split
  · have hbits : v / 262144 % 8 + 0xF0 - 0xF0 = v / 262144 := by omega
    rw [hbits]
    exact ⟨0x80, 0xBF, rfl, by simp, by simp; omega⟩
  · have hbits : v / 262144 = 4 := by omega
    rw [if_pos (by omega)]
    exact ⟨0x80, 0x8F, by rw [hbits], by simp, by simp; omega⟩

section Inside

variable {index n code seen : Nat} {low high : UInt8} {rest : Bytes}

/-- A byte within the bounds is admitted, and gives six bits. -/
private theorem admits_and_push (owed code seen : Nat) (h : n < 64) (hlow : low.toNat ≤ n + 0x80)
    (hhigh : n + 0x80 ≤ high.toNat) :
    Partial.admits ⟨low, high, owed, code, seen⟩ (UInt8.ofNat (n + 0x80)) = true ∧
      Partial.push ⟨low, high, owed, code, seen⟩ (UInt8.ofNat (n + 0x80)) =
        ⟨0x80, 0xBF, owed - 1, code * 64 + n, seen + 1⟩ := by
  have hn : (UInt8.ofNat (n + 0x80)).toNat = n + 0x80 := by
    rw [UInt8.toNat_ofNat']
    exact Nat.mod_eq_of_lt (by omega)
  have hbits : (n + 0x80) % 64 = n := by omega
  constructor
  · simp only [Partial.admits, UInt8.le_iff_toNat_le, hn, hlow, hhigh, decide_true, Bool.and_self]
  · rw [Partial.push, hn, hbits]

/-- The last byte of a character ends it. -/
private theorem decodeFrom_last (h : n < 64) (hlow : low.toNat ≤ n + 0x80)
    (hhigh : n + 0x80 ≤ high.toNat) :
    decodeFrom index (some ⟨low, high, 1, code, seen⟩) (UInt8.ofNat (n + 0x80) :: rest) =
      (decodeFrom (index + seen + 1) none rest).map (Char.ofNat (code * 64 + n) :: ·) := by
  obtain ⟨hadmits, hpush⟩ := admits_and_push 1 code seen h hlow hhigh
  rw [decodeFrom, if_pos hadmits, if_pos (Nat.le_refl 1), hpush]

/-- Every byte before the last leaves one byte fewer, with bounds that every six bits keep. -/
private theorem decodeFrom_inner (owed : Nat) (h : n < 64) (hlow : low.toNat ≤ n + 0x80)
    (hhigh : n + 0x80 ≤ high.toNat) :
    decodeFrom index (some ⟨low, high, owed + 2, code, seen⟩) (UInt8.ofNat (n + 0x80) :: rest) =
      decodeFrom index (some ⟨0x80, 0xBF, owed + 1, code * 64 + n, seen + 1⟩) rest := by
  obtain ⟨hadmits, hpush⟩ := admits_and_push (owed + 2) code seen h hlow hhigh
  rw [decodeFrom, if_pos hadmits, if_neg (Nat.not_succ_le_zero owed ∘ Nat.le_of_succ_le_succ),
    hpush]
  rfl

end Inside

/-- The reader is between two characters again after the bytes of a character, and has it. -/
theorem decodeFrom_utf8EncodeChar_append (index : Nat) (c : Char) (rest : Bytes) :
    decodeFrom index none (String.utf8EncodeChar c ++ rest) =
      (decodeFrom (index + (String.utf8EncodeChar c).length) none rest).map (c :: ·) := by
  have hvalid : c.val.toNat < 0xD800 ∨ 0xDFFF < c.val.toNat ∧ c.val.toNat < 0x110000 := c.valid
  have hchar : Char.ofNat c.val.toNat = c := Char.ofNat_toNat c
  unfold String.utf8EncodeChar
  generalize c.val.toNat = v at hvalid hchar
  -- one case for each number of bytes, in which the bits come together again in front of the rest
  simp only
  split
  · next h1 =>
    rw [List.singleton_append, decodeFrom, lead_of_ofNat (by omega), if_pos (by omega)]
    simp only [hchar, List.length_singleton]
  split
  · next h1 h2 =>
    have hcode : v / 64 * 64 + v % 64 = v := by omega
    rw [List.cons_append, List.singleton_append, decodeFrom, lead_of_two (by omega) h2]
    simp only
    rw [decodeFrom_last (by omega) (by simp) (by simp; omega), hcode, hchar]
    rfl
  split
  · next h1 h2 h3 =>
    obtain ⟨low, high, hlead, hlow, hhigh⟩ := lead_of_three (v := v) (by omega) h3 (by omega)
    have hcode : (v / 4096 * 64 + v / 64 % 64) * 64 + v % 64 = v := by omega
    rw [List.cons_append, List.cons_append, List.singleton_append, decodeFrom, hlead]
    simp only
    rw [decodeFrom_inner 0 (by omega) hlow hhigh,
      decodeFrom_last (by omega) (by simp) (by simp; omega), hcode, hchar]
    rfl
  · next h1 h2 h3 =>
    obtain ⟨low, high, hlead, hlow, hhigh⟩ := lead_of_four (v := v) (by omega) (by omega)
    have hcode :
        ((v / 262144 * 64 + v / 4096 % 64) * 64 + v / 64 % 64) * 64 + v % 64 = v := by omega
    rw [List.cons_append, List.cons_append, List.cons_append, List.singleton_append, decodeFrom,
      hlead]
    simp only
    rw [decodeFrom_inner 1 (by omega) hlow hhigh,
      decodeFrom_inner 0 (by omega) (by simp) (by simp; omega),
      decodeFrom_last (by omega) (by simp) (by simp; omega), hcode, hchar]
    rfl

/-- Characters are read from their bytes. -/
theorem decodeFrom_flatMap (index : Nat) (chars : List Char) :
    decodeFrom index none (chars.flatMap String.utf8EncodeChar) = .ok chars := by
  induction chars generalizing index with
  | nil => rfl
  | cons c chars ih =>
    rw [List.flatMap_cons, decodeFrom_utf8EncodeChar_append, ih]
    rfl

private theorem toList_loop (bytes : ByteArray) (start : Nat) (before : List UInt8) :
    ByteArray.toList.loop bytes start before = before.reverse ++ bytes.data.toList.drop start := by
  fun_induction ByteArray.toList.loop bytes start before with
  | case1 start before h ih =>
    have hstart : start < bytes.data.toList.length := by simpa using h
    rw [ih, List.drop_eq_getElem_cons hstart, List.reverse_cons, List.append_assoc]
    simp [ByteArray.get!, h]
  | case2 start before h =>
    have hstart : bytes.data.toList.length ≤ start := by simpa using h
    rw [List.drop_eq_nil_of_le hstart, List.append_nil]

/-- The bytes of a text are those of its characters. -/
theorem encode_eq_flatMap (text : String) :
    encode text = text.toList.flatMap String.utf8EncodeChar := by
  have hbytes : text.toUTF8 = (text.toList.flatMap String.utf8EncodeChar).toByteArray := by
    rw [← String.ofList_toList (s := text), String.toUTF8_eq_toByteArray, String.toByteArray_ofList,
      String.toList_ofList]
    rfl
  rw [encode, hbytes, ByteArray.toList, toList_loop, List.toList_data_toByteArray]
  rfl

/-- A text is read from its bytes. -/
@[simp] theorem decode_encode (text : String) : decode (encode text) = .ok text := by
  rw [decode, encode_eq_flatMap, decodeFrom_flatMap]
  exact congrArg Except.ok String.ofList_toList

/-- Only the zero character has a zero byte. -/
theorem ne_zero_of_mem_utf8EncodeChar {c : Char} (hc : c ≠ '\x00') {b : UInt8}
    (hb : b ∈ String.utf8EncodeChar c) : b ≠ 0 := by
  have hv : c.val.toNat ≠ 0 := fun h ↦ hc (Char.ext (UInt32.toNat_inj.mp h))
  have hne {n : Nat} (h : n % 256 ≠ 0) : UInt8.ofNat n ≠ 0 := fun hzero ↦
    h (by simpa using congrArg UInt8.toNat hzero)
  unfold String.utf8EncodeChar at hb
  generalize c.val.toNat = v at hv hb
  simp only at hb
  split at hb
  · obtain rfl := List.mem_singleton.mp hb
    exact hne (by omega)
  split at hb
  · simp only [List.mem_cons, List.not_mem_nil, or_false] at hb
    rcases hb with rfl | rfl <;> exact hne (by omega)
  split at hb
  · simp only [List.mem_cons, List.not_mem_nil, or_false] at hb
    rcases hb with rfl | rfl | rfl <;> exact hne (by omega)
  · simp only [List.mem_cons, List.not_mem_nil, or_false] at hb
    rcases hb with rfl | rfl | rfl | rfl <;> exact hne (by omega)

theorem ne_zero_of_mem_encode {text : String} (ht : '\x00' ∉ text.toList) {b : UInt8}
    (hb : b ∈ encode text) : b ≠ 0 := by
  rw [encode_eq_flatMap] at hb
  obtain ⟨c, hc, hb⟩ := List.mem_flatMap.mp hb
  exact ne_zero_of_mem_utf8EncodeChar (fun h ↦ ht (h ▸ hc)) hb

end WifiNetlink.Utf8

namespace WifiNetlink.Payload

/-- A text without a zero character is read from its payload. -/
theorem ofPayload_toPayload_text {text : String} (ht : '\x00' ∉ text.toList) :
    ofPayload (toPayload text) = (.ok text : Except Error String) := by
  have hbytes : (Utf8.encode text ++ [0]).takeWhile (· != 0) = Utf8.encode text := by
    rw [List.takeWhile_append_of_pos fun b hb ↦ by simpa using Utf8.ne_zero_of_mem_encode ht hb]
    exact List.append_nil _
  change readText (Utf8.encode text ++ [0]) = .ok text
  rw [readText, hbytes, Utf8.decode_encode]

end WifiNetlink.Payload
