import Mathlib.Data.List.Forall2
import WifiNetlink.Wifi.MacAddress

/-!
# Hardware addresses as text

A text spells a hardware address if it is six groups with colons between them, each of which writes
one byte: as two digits in base sixteen, of either case, or as a plus sign and one digit. Main
statement: an address is read from exactly these texts, every other text is refused for the first
thing that is wrong with it, and every address is read back from its own text. A text without plus
signs is read if it has six groups of two digits, and is then the text of its address but for the
case of the digits.
-/

namespace WifiNetlink.MacAddress

/-- A digit in base sixteen of either case, and its value. -/
def IsDigit (c : Char) (value : Nat) : Prop :=
  "0123456789abcdef".toList[value]? = some c ∨ "0123456789ABCDEF".toList[value]? = some c

/-- Whether a group writes a byte as two digits. -/
def IsPair (group : List Char) (octet : UInt8) : Prop :=
  ∃ high low m n, group = [high, low] ∧ IsDigit high m ∧ IsDigit low n ∧ octet.toNat = 16 * m + n

/-- Whether a group writes a byte as a plus sign and a digit. -/
def IsSigned (group : List Char) (octet : UInt8) : Prop :=
  ∃ low, group = ['+', low] ∧ IsDigit low octet.toNat

/-- Whether a group writes a byte in one way or the other. -/
def IsOctet (group : List Char) (octet : UInt8) : Prop := IsPair group octet ∨ IsSigned group octet

/-- Whether a group writes no byte. -/
def IsBad (group : List Char) : Prop := ∀ octet, ¬ IsOctet group octet

/-- Whether a text spells an address: it has a group for each byte, with colons between them. -/
def Spells (text : String) (Writes : List Char → UInt8 → Prop) (mac : MacAddress) : Prop :=
  ∃ groups, text.toList = [':'].intercalate groups ∧ List.Forall₂ Writes groups mac.octets

variable {c : Char} {value : Nat} {group : List Char} {octet : UInt8}

/-! ### Digits -/

/-- What holds of the sixteen digits in either case holds of every digit. -/
theorem IsDigit.of_forall {P : Char → Nat → Prop} (h : IsDigit c value)
    (hlower : ∀ value < 16, P (Nat.digitChar value) value)
    (hupper : ∀ value < 16, P (Nat.digitChar value).toUpper value) : P c value := by
  have hlowers : ∀ value < 16,
      "0123456789abcdef".toList[value]? = some (Nat.digitChar value) := by decide
  have huppers : ∀ value < 16,
      "0123456789ABCDEF".toList[value]? = some (Nat.digitChar value).toUpper := by decide
  rcases h with h | h
  · have hv : value < 16 := (List.getElem?_eq_some_iff.mp h).1
    rw [← Option.some.inj ((hlowers value hv).symm.trans h)]
    exact hlower value hv
  · have hv : value < 16 := (List.getElem?_eq_some_iff.mp h).1
    rw [← Option.some.inj ((huppers value hv).symm.trans h)]
    exact hupper value hv

theorem IsDigit.lt (h : IsDigit c value) : value < 16 :=
  h.of_forall (P := fun _ value ↦ value < 16) (fun _ hv ↦ hv) fun _ hv ↦ hv

theorem IsDigit.ne_plus (h : IsDigit c value) : c ≠ '+' :=
  h.of_forall (P := fun c _ ↦ c ≠ '+') (by decide) (by decide)

theorem IsDigit.ne_colon (h : IsDigit c value) : c ≠ ':' :=
  h.of_forall (P := fun c _ ↦ c ≠ ':') (by decide) (by decide)

theorem IsDigit.toLower_eq (h : IsDigit c value) : c.toLower = Nat.digitChar value :=
  h.of_forall (P := fun c value ↦ c.toLower = Nat.digitChar value) (by decide) (by decide)

theorem IsDigit.digit?_eq (h : IsDigit c value) : Bytes.digit? c = some value :=
  h.of_forall (P := fun c value ↦ Bytes.digit? c = some value) (by decide) (by decide)

/-- Digits are characters below 128. -/
private theorem toNat_lt_of_digit? (h : Bytes.digit? c = some value) : c.toNat < 128 := by
  unfold Bytes.digit? at h
  split at h
  · next hc => exact Nat.lt_of_le_of_lt (UInt32.le_iff_toNat_le.mp hc.2) (by decide)
  split at h
  · next hc => exact Nat.lt_of_le_of_lt (UInt32.le_iff_toNat_le.mp hc.2) (by decide)
  split at h
  · next hc => exact Nat.lt_of_le_of_lt (UInt32.le_iff_toNat_le.mp hc.2) (by decide)
  · contradiction

instance (c : Char) (value : Nat) : Decidable (IsDigit c value) :=
  inferInstanceAs (Decidable (_ ∨ _))

theorem digit?_eq_some_iff : Bytes.digit? c = some value ↔ IsDigit c value := by
  refine ⟨fun h ↦ ?_, IsDigit.digit?_eq⟩
  have hall : ∀ code < 128, ∀ value ∈ Bytes.digit? (Char.ofNat code),
      IsDigit (Char.ofNat code) value := by decide
  have hc := hall c.toNat (toNat_lt_of_digit? h) value
  rw [Char.ofNat_toNat] at hc
  exact hc h

/-! ### Groups -/

private theorem toNat_ofNat {n : Nat} (h : n < 256) : (UInt8.ofNat n).toNat = n := by
  rw [UInt8.toNat_ofNat', Nat.mod_eq_of_lt h]

theorem byte?_eq_some_iff {high low : Char} :
    Bytes.byte? high low = some octet ↔
      ∃ m n, IsDigit high m ∧ IsDigit low n ∧ octet.toNat = 16 * m + n := by
  simp only [Bytes.byte?, ← digit?_eq_some_iff]
  constructor
  · intro h
    obtain ⟨m, hm, n, hn, rfl⟩ : ∃ m, Bytes.digit? high = some m ∧ ∃ n,
        Bytes.digit? low = some n ∧ UInt8.ofNat (m * 16 + n) = octet := by
      simpa [Option.bind_eq_some_iff] using h
    have hm' := (digit?_eq_some_iff.mp hm).lt
    have hn' := (digit?_eq_some_iff.mp hn).lt
    refine ⟨m, n, hm, hn, ?_⟩
    rw [toNat_ofNat (by omega), Nat.mul_comm]
  · rintro ⟨m, n, hm, hn, ho⟩
    have h : UInt8.ofNat (m * 16 + n) = octet := by
      rw [Nat.mul_comm, ← ho, UInt8.ofNat_toNat]
    rw [hm, hn, ← h]
    rfl

theorem octet?_eq_some_iff : octet? group = some octet ↔ IsOctet group octet := by
  constructor
  · intro h
    fun_cases octet? group with
    | case1 low =>
      simp only [octet?, if_true] at h
      obtain ⟨n, hn, rfl⟩ := Option.map_eq_some_iff.mp h
      have hlow := digit?_eq_some_iff.mp hn
      refine .inr ⟨low, rfl, ?_⟩
      rwa [toNat_ofNat (Nat.lt_trans hlow.lt (by decide))]
    | case2 high low hhigh =>
      simp only [octet?, hhigh, if_false] at h
      obtain ⟨m, n, hm, hn, ho⟩ := byte?_eq_some_iff.mp h
      exact .inl ⟨high, low, m, n, rfl, hm, hn, ho⟩
    | case3 group hgroup => simp [octet?] at h
  · rintro (⟨high, low, m, n, rfl, hm, hn, ho⟩ | ⟨low, rfl, hlow⟩)
    · rw [octet?, if_neg hm.ne_plus]
      exact byte?_eq_some_iff.mpr ⟨m, n, hm, hn, ho⟩
    · rw [octet?, if_pos rfl, hlow.digit?_eq, Option.map_some, UInt8.ofNat_toNat]

theorem octet?_eq_none_iff : octet? group = none ↔ IsBad group := by
  simp only [Option.eq_none_iff_forall_ne_some, ne_eq, octet?_eq_some_iff, IsBad]

theorem IsPair.ne_plus (h : IsPair group octet) : '+' ∉ group := by
  obtain ⟨high, low, m, n, rfl, hm, hn, -⟩ := h
  simp [hm.ne_plus.symm, hn.ne_plus.symm]

theorem IsOctet.ne_colon (h : IsOctet group octet) : ':' ∉ group := by
  rcases h with ⟨high, low, m, n, rfl, hm, hn, -⟩ | ⟨low, rfl, hlow⟩
  · simp [hm.ne_colon.symm, hn.ne_colon.symm]
  · simp [hlow.ne_colon.symm]

/-! ### Parts of a text -/

theorem splitOn_eq (separator : Char) (cs : List Char) :
    splitOn separator cs = List.splitOn separator cs := by
  induction cs with
  | nil => rfl
  | cons c rest ih =>
    rw [List.splitOn, List.splitOnP_cons_eq_if_modifyHead, ← List.splitOn, ← ih, splitOn]
    by_cases hc : c = separator
    · simp [hc]
    · rw [if_neg hc, if_neg (by simpa using hc)]
      cases hrest : splitOn separator rest with
      | nil =>
        rw [ih, List.splitOn] at hrest
        exact absurd hrest (List.splitOnP_ne_nil _ rest)
      | cons part parts => rfl

theorem intercalate_eq (separator : Char) (parts : List (List Char)) :
    intercalate separator parts = [separator].intercalate parts := by
  fun_induction intercalate separator parts with
  | case1 => rfl
  | case2 part => simp [List.intercalate]
  | case3 part rest hrest ih =>
    cases rest with
    | nil => exact absurd rfl hrest
    | cons next rest => rw [ih, List.intercalate_cons_cons, List.append_assoc]; rfl

/-- Groups that write bytes are the parts of their text between the colons. -/
theorem splitOn_intercalate {groups : List (List Char)} {bytes : Bytes} (hne : groups ≠ [])
    (h : List.Forall₂ IsOctet groups bytes) :
    splitOn ':' ([':'].intercalate groups) = groups := by
  rw [splitOn_eq]
  apply List.splitOn_intercalate ':' _ hne
  exact ((List.forall₂_and_left _ _).mp (h.imp fun _ _ ho ↦ ⟨ho.ne_colon, ho⟩)).1

section readOctets

variable {text : String} {count : Nat} {parts rest : List (List Char)} {bytes : Bytes}

/-- So many parts are read if each writes a byte. -/
theorem readOctets_eq_ok_iff :
    readOctets text count parts = .ok (bytes, rest) ↔
      ∃ groups, parts = groups ++ rest ∧ groups.length = count ∧
        List.Forall₂ IsOctet groups bytes := by
  induction count generalizing parts bytes with
  | zero =>
    rw [readOctets]
    constructor
    · intro h
      obtain ⟨rfl, rfl⟩ := Prod.mk.inj (Except.ok.inj h)
      exact ⟨[], rfl, rfl, .nil⟩
    · rintro ⟨groups, rfl, hlength, hgroups⟩
      obtain rfl := List.eq_nil_of_length_eq_zero hlength
      cases hgroups
      rfl
  | succ count ih =>
    constructor
    · intro h
      cases parts with
      | nil => simp [readOctets] at h
      | cons part parts =>
        rw [readOctets] at h
        split at h
        · contradiction
        · next octet ho =>
          cases hread : readOctets text count parts with
          | error fault => simp [hread, Except.map] at h
          | ok read =>
            rw [hread] at h
            obtain ⟨rfl, rfl⟩ := Prod.mk.inj (Except.ok.inj h)
            obtain ⟨groups, rfl, rfl, hgroups⟩ := ih.mp hread
            exact ⟨part :: groups, rfl, rfl, .cons (octet?_eq_some_iff.mp ho) hgroups⟩
    · rintro ⟨groups, rfl, hlength, hgroups⟩
      cases hgroups with
      | nil => contradiction
      | @cons part octet groups bytes ho hgroups =>
        have hread := ih.mpr ⟨groups, rfl, Nat.succ.inj hlength, hgroups⟩
        rw [List.cons_append, readOctets, octet?_eq_some_iff.mpr ho]
        simp only [hread, Except.map]

/-- A mapped outcome fails where the outcome itself does. -/
private theorem map_eq_error_iff {ε α β : Type} {f : α → β} {outcome : Except ε α} {e : ε} :
    Except.map f outcome = .error e ↔ outcome = .error e := by
  cases outcome <;> simp [Except.map]

/-- The first part that writes no byte is the fault, or there are too few parts. -/
theorem readOctets_eq_error_iff {fault : AttributeFault} :
    readOctets text count parts = .error fault ↔
      (∃ before part after, parts = before ++ part :: after ∧ before.length < count ∧
        (∀ group ∈ before, ¬ IsBad group) ∧ IsBad part ∧
          fault = .addressOctet (String.ofList part)) ∨
      (parts.length < count ∧ (∀ group ∈ parts, ¬ IsBad group) ∧ fault = .addressShort text) := by
  induction count generalizing parts with
  | zero => simp [readOctets]
  | succ count ih =>
    cases parts with
    | nil => simp [readOctets, eq_comm]
    | cons part parts =>
      rw [readOctets]
      cases ho : octet? part with
      | none =>
        have hbad := octet?_eq_none_iff.mp ho
        constructor
        · intro h
          exact .inl ⟨[], part, parts, rfl, Nat.succ_pos count, by simp, hbad,
            (Except.error.inj h).symm⟩
        · rintro (⟨before, part', after, hparts, -, hbefore, -, rfl⟩ | ⟨-, hall, -⟩)
          · cases before with
            | nil =>
              obtain ⟨rfl, -⟩ := List.cons.inj hparts
              rfl
            | cons group before =>
              obtain ⟨rfl, -⟩ := List.cons.inj hparts
              exact absurd hbad (hbefore part List.mem_cons_self)
          · exact absurd hbad (hall part List.mem_cons_self)
      | some octet =>
        have hgood : ¬ IsBad part := fun hbad ↦ hbad octet (octet?_eq_some_iff.mp ho)
        simp only [map_eq_error_iff, ih]
        constructor
        · rintro (⟨before, bad, after, rfl, hlength, hbefore, hbad, rfl⟩ | ⟨hlength, hall, rfl⟩)
          · exact .inl ⟨part :: before, bad, after, rfl, Nat.succ_lt_succ hlength,
              List.forall_mem_cons.mpr ⟨hgood, hbefore⟩, hbad, rfl⟩
          · exact .inr ⟨Nat.succ_lt_succ hlength, List.forall_mem_cons.mpr ⟨hgood, hall⟩, rfl⟩
        · rintro (⟨before, bad, after, hparts, hlength, hbefore, hbad, rfl⟩ | ⟨hlength, hall, rfl⟩)
          · cases before with
            | nil =>
              obtain ⟨rfl, -⟩ := List.cons.inj hparts
              exact absurd hbad hgood
            | cons group before =>
              obtain ⟨rfl, rfl⟩ := List.cons.inj hparts
              exact .inl ⟨before, bad, after, rfl, Nat.lt_of_succ_lt_succ hlength,
                (List.forall_mem_cons.mp hbefore).2, hbad, rfl⟩
          · exact .inr ⟨Nat.lt_of_succ_lt_succ hlength, (List.forall_mem_cons.mp hall).2, rfl⟩

end readOctets

/-! ### Addresses -/

variable {text : String} {mac : MacAddress}

theorem parse_eq_ok_iff : parse text = .ok mac ↔ Spells text IsOctet mac := by
  constructor
  · intro h
    unfold parse at h
    split at h
    · contradiction
    · next bytes hread =>
      obtain rfl := Except.ok.inj h
      obtain ⟨groups, hparts, -, hgroups⟩ := readOctets_eq_ok_iff.mp hread
      refine ⟨groups, ?_, hgroups⟩
      have hsplit : [':'].intercalate (List.splitOn ':' text.toList) = text.toList :=
        List.intercalate_splitOn ':'
      rw [← hsplit, ← splitOn_eq, hparts, List.append_nil]
    · contradiction
  · rintro ⟨groups, htext, hgroups⟩
    have hlength : groups.length = 6 := hgroups.length_eq.trans mac.length_octets
    have hparts : splitOn ':' text.toList = groups ++ [] := by
      rw [htext, splitOn_intercalate _ hgroups, List.append_nil]
      exact List.ne_nil_of_length_pos (by omega)
    have hread : readOctets text 6 (splitOn ':' text.toList) = .ok (mac.octets, []) :=
      readOctets_eq_ok_iff.mpr ⟨groups, hparts, hlength, hgroups⟩
    unfold parse
    split
    · next fault hfault => rw [hread] at hfault; contradiction
    · next bytes hbytes =>
      rw [hread] at hbytes
      obtain ⟨rfl, -⟩ := Prod.mk.inj (Except.ok.inj hbytes)
      rfl
    · next bytes part parts hmore =>
      rw [hread] at hmore
      simp at hmore

/-- What is refused is refused for a fault of a part, or for parts that are left over. -/
theorem parse_eq_error_iff {e : Error} :
    parse text = .error e ↔
      (∃ fault, readOctets text 6 (splitOn ':' text.toList) = .error fault ∧
        e = .invalidAttribute fault) ∨
      (∃ bytes part parts, readOctets text 6 (splitOn ':' text.toList) =
        .ok (bytes, part :: parts) ∧ e = .invalidAttribute (.addressLong text)) := by
  unfold parse
  split
  · next fault hfault => simp [hfault, eq_comm]
  · next bytes hbytes => simp [hbytes]
  · next bytes part parts hmore => simp [hmore, eq_comm]

theorem parse_eq_octet_iff {part : String} :
    parse text = .error (.invalidAttribute (.addressOctet part)) ↔
      ∃ before bad after, List.splitOn ':' text.toList = before ++ bad :: after ∧
        before.length < 6 ∧ (∀ group ∈ before, ¬ IsBad group) ∧ IsBad bad ∧
          part = String.ofList bad := by
  simp [parse_eq_error_iff, splitOn_eq, readOctets_eq_error_iff]

theorem parse_eq_short_iff {whole : String} :
    parse text = .error (.invalidAttribute (.addressShort whole)) ↔
      (List.splitOn ':' text.toList).length < 6 ∧
        (∀ group ∈ List.splitOn ':' text.toList, ¬ IsBad group) ∧ whole = text := by
  simp [parse_eq_error_iff, splitOn_eq, readOctets_eq_error_iff]

/-- Groups none of which is bad write bytes. -/
private theorem exists_bytes {groups : List (List Char)} (h : ∀ group ∈ groups, ¬ IsBad group) :
    ∃ bytes, List.Forall₂ IsOctet groups bytes := by
  induction groups with
  | nil => exact ⟨[], .nil⟩
  | cons group groups ih =>
    obtain ⟨hgroup, hgroups⟩ := List.forall_mem_cons.mp h
    obtain ⟨bytes, hbytes⟩ := ih hgroups
    obtain ⟨octet, hoctet⟩ := not_forall_not.mp hgroup
    exact ⟨octet :: bytes, .cons hoctet hbytes⟩

theorem parse_eq_long_iff {whole : String} :
    parse text = .error (.invalidAttribute (.addressLong whole)) ↔
      6 < (List.splitOn ':' text.toList).length ∧
        (∀ group ∈ (List.splitOn ':' text.toList).take 6, ¬ IsBad group) ∧ whole = text := by
  rw [parse_eq_error_iff, splitOn_eq]
  constructor
  · rintro (⟨fault, hread, hfault⟩ | ⟨bytes, part, parts, hread, hlong⟩)
    · obtain rfl := Error.invalidAttribute.inj hfault
      simp [readOctets_eq_error_iff] at hread
    · obtain ⟨groups, hparts, hlength, hgroups⟩ := readOctets_eq_ok_iff.mp hread
      rw [hparts, List.take_left' hlength]
      refine ⟨by simp [hlength], ?_, by simpa using hlong⟩
      exact ((List.forall₂_and_left _ _).mp (hgroups.imp fun _ _ ho ↦ ⟨fun hbad ↦ hbad _ ho, ho⟩)).1
  · rintro ⟨hlength, hgood, rfl⟩
    obtain ⟨bytes, hbytes⟩ := exists_bytes hgood
    obtain ⟨part, parts, hrest⟩ : ∃ part parts,
        (List.splitOn ':' whole.toList).drop 6 = part :: parts := by
      apply List.exists_cons_of_length_pos
      rw [List.length_drop]
      omega
    refine .inr ⟨bytes, part, parts, ?_, rfl⟩
    refine readOctets_eq_ok_iff.mpr ⟨_, ?_, ?_, hbytes⟩
    · rw [← hrest, List.take_append_drop]
    · rw [List.length_take]
      omega

/-! ### Their texts -/

/-- A character of a spelling as it is written in the text of the address. -/
def plainChar (c : Char) : Char := if c = '+' then '0' else c.toLower

theorem IsOctet.map_eq (h : IsOctet group octet) : group.map plainChar = Bytes.hexByte octet := by
  have hplain {c : Char} {value : Nat} (hc : IsDigit c value) :
      plainChar c = Nat.digitChar value := by
    rw [plainChar, if_neg hc.ne_plus, hc.toLower_eq]
  rcases h with ⟨high, low, m, n, rfl, hm, hn, ho⟩ | ⟨low, rfl, hlow⟩
  · have hlt := hn.lt
    have hdiv : octet.toNat / 16 = m := by omega
    have hmod : octet.toNat % 16 = n := by omega
    rw [Bytes.hexByte, hdiv, hmod, List.map_cons, List.map_singleton, hplain hm, hplain hn]
  · have hlt := hlow.lt
    have hdiv : octet.toNat / 16 = 0 := by omega
    have hmod : octet.toNat % 16 = octet.toNat := by omega
    rw [Bytes.hexByte, hdiv, hmod, List.map_cons, List.map_singleton, hplain hlow]
    rfl

theorem isPair_hexByte (octet : UInt8) : IsPair (Bytes.hexByte octet) octet := by
  have hdigit : ∀ value < 16, IsDigit (Nat.digitChar value) value := by decide
  have hlt := octet.toNat_lt
  exact ⟨_, _, octet.toNat / 16, octet.toNat % 16, rfl, hdigit _ (by omega), hdigit _ (by omega),
    by omega⟩

theorem map_intercalate (f : Char → Char) (separator : Char) (parts : List (List Char)) :
    (intercalate separator parts).map f = intercalate (f separator) (parts.map (·.map f)) := by
  fun_induction intercalate separator parts with
  | case1 => rfl
  | case2 part => rfl
  | case3 part rest hrest ih =>
    cases rest with
    | nil => exact absurd rfl hrest
    | cons next rest => simp [intercalate, ih]

/-- A character that does not separate stands in one of the parts. -/
theorem mem_intercalate_iff {separator : Char} {parts : List (List Char)} (hc : c ≠ separator) :
    c ∈ intercalate separator parts ↔ ∃ part ∈ parts, c ∈ part := by
  fun_induction intercalate separator parts with
  | case1 => simp
  | case2 part => simp
  | case3 part rest hrest ih => simp [ih, hc]

theorem text_of_parse (h : parse text = .ok mac) : mac.text = text.map plainChar := by
  obtain ⟨groups, htext, hgroups⟩ := parse_eq_ok_iff.mp h
  have hmap : groups.map (·.map plainChar) = mac.octets.map Bytes.hexByte := by
    rw [← List.forall₂_eq_eq_eq, List.forall₂_map_left_iff, List.forall₂_map_right_iff]
    exact hgroups.imp fun _ _ ho ↦ ho.map_eq
  apply String.toList_inj.mp
  rw [MacAddress.text, String.toList_ofList, String.toList_map, htext, ← intercalate_eq,
    map_intercalate, hmap]
  rfl

theorem parse_text (mac : MacAddress) : parse mac.text = .ok mac := by
  rw [parse_eq_ok_iff]
  refine ⟨mac.octets.map Bytes.hexByte, ?_, ?_⟩
  · rw [MacAddress.text, String.toList_ofList, intercalate_eq]
  · rw [List.forall₂_map_left_iff, List.forall₂_same]
    exact fun octet _ ↦ .inl (isPair_hexByte octet)

/-- Six pairs of digits are the spellings without plus signs. -/
theorem spells_isPair_iff :
    Spells text IsPair mac ↔ Spells text IsOctet mac ∧ '+' ∉ text.toList := by
  have hmem {groups : List (List Char)} (htext : text.toList = [':'].intercalate groups) :
      '+' ∈ text.toList ↔ ∃ group ∈ groups, '+' ∈ group := by
    rw [htext, ← intercalate_eq, mem_intercalate_iff (by decide)]
  constructor
  · rintro ⟨groups, htext, hgroups⟩
    refine ⟨⟨groups, htext, hgroups.imp fun _ _ ↦ .inl⟩, ?_⟩
    have hnone : ∀ group ∈ groups, '+' ∉ group :=
      ((List.forall₂_and_left _ _).mp (hgroups.imp fun _ _ ho ↦ ⟨ho.ne_plus, ho⟩)).1
    simpa [hmem htext] using hnone
  · rintro ⟨⟨groups, htext, hgroups⟩, hplus⟩
    have hnone : ∀ group ∈ groups, '+' ∉ group := by simpa [hmem htext] using hplus
    refine ⟨groups, htext, ((List.forall₂_and_left _ _).mpr ⟨hnone, hgroups⟩).imp ?_⟩
    rintro group octet ⟨hplus, hpair | ⟨low, rfl, -⟩⟩
    · exact hpair
    · exact absurd List.mem_cons_self hplus

/-- The text of an address is the spelling in lower case unless it has a plus sign. -/
theorem text_eq_toLower_iff (h : parse text = .ok mac) :
    mac.text = text.toLower ↔ '+' ∉ text.toList := by
  have hlower : text.toLower = text.map Char.toLower := rfl
  rw [text_of_parse h, hlower, ← String.toList_inj, String.toList_map, String.toList_map,
    List.map_inj_left]
  constructor
  · intro hall hplus
    exact absurd (hall '+' hplus) (by decide)
  · intro hnone c hc
    exact if_neg fun (hplus : c = '+') ↦ hnone (hplus ▸ hc)

/-- What is read from a text. -/
structure IsParsed (text : String) : Prop where
  ok_iff (mac : MacAddress) : parse text = .ok mac ↔ Spells text IsOctet mac
  /-- Six pairs of digits are what is read of a text without plus signs. -/
  pairs_iff (mac : MacAddress) :
    Spells text IsPair mac ↔ parse text = .ok mac ∧ '+' ∉ text.toList
  text_eq {mac : MacAddress} (h : parse text = .ok mac) : mac.text = text.map plainChar
  toLower_iff {mac : MacAddress} (h : parse text = .ok mac) :
    mac.text = text.toLower ↔ '+' ∉ text.toList
  /-- One of the first six parts writes no byte, and those before it do. -/
  octet_iff (part : String) : parse text = .error (.invalidAttribute (.addressOctet part)) ↔
    ∃ before bad after, List.splitOn ':' text.toList = before ++ bad :: after ∧
      before.length < 6 ∧ (∀ group ∈ before, ¬ IsBad group) ∧ IsBad bad ∧
        part = String.ofList bad
  short_iff (whole : String) : parse text = .error (.invalidAttribute (.addressShort whole)) ↔
    (List.splitOn ':' text.toList).length < 6 ∧
      (∀ group ∈ List.splitOn ':' text.toList, ¬ IsBad group) ∧ whole = text
  long_iff (whole : String) : parse text = .error (.invalidAttribute (.addressLong whole)) ↔
    6 < (List.splitOn ':' text.toList).length ∧
      (∀ group ∈ (List.splitOn ':' text.toList).take 6, ¬ IsBad group) ∧ whole = text
  /-- A text that is not read has one of these faults. -/
  refused : (∀ mac, parse text ≠ .ok mac) → ∃ fault, parse text = .error (.invalidAttribute fault)

/-- Addresses are read from the texts that spell them and from their own texts, and every other text
is refused for its first fault. -/
theorem spellings_areParsed (text : String) (mac : MacAddress) :
    IsParsed text ∧ parse mac.text = .ok mac := by
  refine ⟨?_, parse_text mac⟩
  constructor
  case ok_iff => exact fun mac ↦ parse_eq_ok_iff
  case pairs_iff => exact fun mac ↦ by rw [spells_isPair_iff, parse_eq_ok_iff]
  case text_eq => exact text_of_parse
  case toLower_iff => exact text_eq_toLower_iff
  case octet_iff => exact fun part ↦ parse_eq_octet_iff
  case short_iff => exact fun whole ↦ parse_eq_short_iff
  case long_iff => exact fun whole ↦ parse_eq_long_iff
  case refused =>
    intro h
    cases hparse : parse text with
    | ok mac => exact absurd hparse (h mac)
    | error e =>
      rcases parse_eq_error_iff.mp hparse with ⟨fault, -, rfl⟩ | ⟨bytes, part, parts, -, rfl⟩
      · exact ⟨fault, rfl⟩
      · exact ⟨.addressLong text, rfl⟩

/-- A text with a group of a plus sign and a digit is read, though it is not six pairs of digits and
the text of its address is another one. -/
theorem parse_signedText :
    ∃ mac, parse "+2:00:00:AB:cd:01" = .ok mac ∧ mac.octets = [2, 0, 0, 0xAB, 0xCD, 1] ∧
      (∀ other, ¬ Spells "+2:00:00:AB:cd:01" IsPair other) ∧
      mac.text ≠ "+2:00:00:AB:cd:01".toLower := by
  have hread : parse "+2:00:00:AB:cd:01" = .ok ⟨[2, 0, 0, 0xAB, 0xCD, 1], rfl⟩ := by decide
  have hplus : '+' ∈ "+2:00:00:AB:cd:01".toList := by decide
  refine ⟨_, hread, rfl, fun other h ↦ (spells_isPair_iff.mp h).2 hplus, fun h ↦ ?_⟩
  exact (text_eq_toLower_iff hread).mp h hplus

end WifiNetlink.MacAddress
