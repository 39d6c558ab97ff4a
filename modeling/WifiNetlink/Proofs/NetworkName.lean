import WifiNetlink.Wifi.Element

/-!
# The network name among information elements

A row of elements names a network if complete elements of other ids come first and then one with
the name, whatever follows it. Main statement: the name is read from exactly these rows. A row of
complete elements of other ids with at most one byte after them has no name, and any other row runs
past its end before it comes to one. A walk gives the elements call by call, at most one fault, and
that as its last.
-/

namespace WifiNetlink.Element

/-- The rows that elements pack: of each an id, a length and a body of that length. -/
inductive Packs : List Element → Bytes → Prop where
  | nil : Packs [] []
  | cons {id length : UInt8} {body row : Bytes} {es : List Element}
    (hbody : body.length = length.toNat) (hrow : Packs es row) :
    Packs (⟨id, body⟩ :: es) (id :: length :: (body ++ row))

/-- Whether a byte string starts with complete elements, none of which holds a name, and goes on
with the rest. -/
def Reaches (bytes rest : Bytes) : Prop :=
  ∃ es row, Packs es row ∧ (∀ e ∈ es, e.id ≠ ssidId) ∧ bytes = row ++ rest

/-- Whether the first name among complete elements is this one. -/
def Names (bytes name : Bytes) : Prop :=
  ∃ length rest, name.length = UInt8.toNat length ∧
    Reaches bytes (ssidId :: length :: (name ++ rest))

/-- Whether there are only complete elements without a name, and too few bytes for one more. -/
def IsNameless (bytes : Bytes) : Prop := ∃ rest, rest.length ≤ 1 ∧ Reaches bytes rest

/-- Whether an element, with so many bytes left for it, runs past the end before any name. -/
def Overruns (bytes : Bytes) (left : Nat) : Prop :=
  ∃ id length body, body.length < UInt8.toNat length ∧ left = body.length + 2 ∧
    Reaches bytes (id :: length :: body)

variable {bytes rest row : Bytes} {id length : UInt8}

theorem elements_of_lt (h : rest.length < length.toNat) :
    elements (id :: length :: rest) =
      [.error (.invalidAttribute (.elementOverrun (rest.length + 2)))] := by
  rw [elements, if_pos h]

theorem elements_of_le (h : length.toNat ≤ rest.length) :
    elements (id :: length :: rest) =
      .ok ⟨id, rest.take length.toNat⟩ :: elements (rest.drop length.toNat) := by
  rw [elements, if_neg (by omega)]

/-- A complete element at the start is the first of the walk. -/
theorem elements_append {body : Bytes} (hbody : body.length = length.toNat) (rest : Bytes) :
    elements (id :: length :: (body ++ rest)) = .ok ⟨id, body⟩ :: elements rest := by
  have hle : length.toNat ≤ (body ++ rest).length := by
    rw [List.length_append]
    omega
  rw [elements_of_le hle, ← hbody, List.take_left, List.drop_left]

theorem elements_of_length_le (h : bytes.length ≤ 1) : elements bytes = [] := by
  fun_cases elements bytes with
  | case1 id length rest => simp at h
  | case2 id length rest => simp at h
  | case3 => rfl

/-- Elements without a name are passed over. -/
theorem ssid_append {es : List Element} (hp : Packs es row) (hes : ∀ e ∈ es, e.id ≠ ssidId)
    (rest : Bytes) : ssid (row ++ rest) = ssid rest := by
  induction hp with
  | nil => rfl
  | @cons id length body row es hbody hrow ih =>
    obtain ⟨hid, hes⟩ := List.forall_mem_cons.mp hes
    change ssidIn (elements (id :: length :: (body ++ row ++ rest))) = _
    rw [List.append_assoc, elements_append hbody, ssidIn, if_neg hid]
    exact ih hes

theorem Reaches.ssid_eq (h : Reaches bytes rest) : ssid bytes = ssid rest := by
  obtain ⟨es, row, hp, hes, rfl⟩ := h
  exact ssid_append hp hes rest

/-- One more complete element without a name may come first. -/
theorem Reaches.cons {body : Bytes} (h : Reaches bytes rest) (hbody : body.length = length.toNat)
    (hid : id ≠ ssidId) : Reaches (id :: length :: (body ++ bytes)) rest := by
  obtain ⟨es, row, hp, hes, rfl⟩ := h
  refine ⟨⟨id, body⟩ :: es, id :: length :: (body ++ row), .cons hbody hp, ?_, by simp⟩
  exact List.forall_mem_cons.mpr ⟨hid, hes⟩

theorem reaches_self (bytes : Bytes) : Reaches bytes bytes :=
  ⟨[], [], .nil, List.forall_mem_nil _, rfl⟩

/-! ### Three outcomes -/

theorem ssid_of_names {name : Bytes} (h : Names bytes name) : ssid bytes = .ok name := by
  obtain ⟨length, rest, hlength, hreach⟩ := h
  rw [hreach.ssid_eq, ssid, elements_append hlength, ssidIn, if_pos rfl]

theorem ssid_of_isNameless (h : IsNameless bytes) :
    ssid bytes = .error (.missingAttribute "SSID information element") := by
  obtain ⟨rest, hlength, hreach⟩ := h
  rw [hreach.ssid_eq, ssid, elements_of_length_le hlength, ssidIn]

theorem ssid_of_overruns {left : Nat} (h : Overruns bytes left) :
    ssid bytes = .error (.invalidAttribute (.elementOverrun left)) := by
  obtain ⟨id, length, body, hlength, rfl, hreach⟩ := h
  rw [hreach.ssid_eq, ssid, elements_of_lt hlength, ssidIn]

/-- Every byte string has a name, has none, or runs past its end. -/
theorem names_or_isNameless_or_overruns (bytes : Bytes) :
    (∃ name, Names bytes name) ∨ IsNameless bytes ∨ ∃ left, Overruns bytes left := by
  fun_induction elements bytes with
  | case1 id length rest hshort =>
    exact .inr (.inr ⟨rest.length + 2, id, length, rest, hshort, rfl, reaches_self _⟩)
  | case2 id length rest hlong ih =>
    have hbody : (rest.take length.toNat).length = length.toNat := by
      rw [List.length_take]
      omega
    by_cases hid : id = ssidId
    · refine .inl ⟨rest.take length.toNat, length, rest.drop length.toNat, hbody, ?_⟩
      rw [List.take_append_drop, hid]
      exact reaches_self _
    · -- What comes behind the first element decides.
      have hcons {tail : Bytes} (h : Reaches (rest.drop length.toNat) tail) :
          Reaches (id :: length :: rest) tail := by
        have := h.cons hbody hid
        rwa [List.take_append_drop] at this
      rcases ih with ⟨name, l, tail, hname, hreach⟩ | ⟨tail, htail, hreach⟩ |
        ⟨left, i, l, body, hshort, hleft, hreach⟩
      · exact .inl ⟨name, l, tail, hname, hcons hreach⟩
      · exact .inr (.inl ⟨tail, htail, hcons hreach⟩)
      · exact .inr (.inr ⟨left, i, l, body, hshort, hleft, hcons hreach⟩)
  | case3 bytes hshort =>
    refine .inr (.inl ⟨bytes, ?_, reaches_self _⟩)
    match bytes with
    | [] => simp
    | [_] => simp
    | id :: length :: rest => exact absurd rfl (hshort id length rest)

theorem ssid_eq_ok_iff {name : Bytes} : ssid bytes = .ok name ↔ Names bytes name := by
  refine ⟨fun h ↦ ?_, ssid_of_names⟩
  rcases names_or_isNameless_or_overruns bytes with ⟨other, hname⟩ | hname | ⟨left, hname⟩
  · rw [ssid_of_names hname] at h
    rwa [← Except.ok.inj h]
  · simp [ssid_of_isNameless hname] at h
  · simp [ssid_of_overruns hname] at h

theorem ssid_eq_missing_iff {which : String} : ssid bytes = .error (.missingAttribute which) ↔
    IsNameless bytes ∧ which = "SSID information element" := by
  constructor
  · intro h
    rcases names_or_isNameless_or_overruns bytes with ⟨name, hname⟩ | hname | ⟨left, hname⟩
    · simp [ssid_of_names hname] at h
    · simp only [ssid_of_isNameless hname, Except.error.injEq, Error.missingAttribute.injEq] at h
      exact ⟨hname, h.symm⟩
    · simp [ssid_of_overruns hname] at h
  · rintro ⟨hname, rfl⟩
    exact ssid_of_isNameless hname

theorem ssid_eq_invalid_iff {fault : AttributeFault} :
    ssid bytes = .error (.invalidAttribute fault) ↔
      ∃ left, Overruns bytes left ∧ fault = .elementOverrun left := by
  constructor
  · intro h
    rcases names_or_isNameless_or_overruns bytes with ⟨name, hname⟩ | hname | ⟨left, hname⟩
    · simp [ssid_of_names hname] at h
    · simp [ssid_of_isNameless hname] at h
    · simp only [ssid_of_overruns hname, Except.error.injEq, Error.invalidAttribute.injEq] at h
      exact ⟨left, hname, h.symm⟩
  · rintro ⟨left, hname, rfl⟩
    exact ssid_of_overruns hname

/-! ### The walk -/

/-- Each element takes at least two bytes. -/
theorem length_elements_le (bytes : Bytes) : 2 * (elements bytes).length ≤ bytes.length := by
  fun_induction elements bytes with
  | case1 id length rest hshort => simp
  | case2 id length rest hlong ih =>
    simp only [List.length_cons, List.length_drop] at ih ⊢
    omega
  | case3 bytes hshort => simp

/-- A fault is the last that a walk gives. -/
theorem length_of_getElem?_eq_error {count : Nat} {e : Error}
    (h : (elements bytes)[count]? = some (.error e)) : (elements bytes).length = count + 1 := by
  fun_induction elements bytes generalizing count with
  | case1 id length rest hshort =>
    cases count with
    | zero => rfl
    | succ count => simp at h
  | case2 id length rest hlong ih =>
    cases count with
    | zero => simp at h
    | succ count => rw [List.length_cons, ih h]
  | case3 bytes hshort => simp at h

namespace Walk

/-- What a call for the next element gives that comes after some others. -/
def call : (count : Nat) → Walk → Option (Except Error Element)
  | 0, w => w.next.1
  | count + 1, w => call count w.next.2

/-- A walk that has failed gives nothing more. -/
theorem call_of_hasFailed (count : Nat) (data : Bytes) : call count ⟨data, true⟩ = none := by
  induction count with
  | zero => rfl
  | succ count ih => exact ih

/-- Call after call gives the elements in order, and then nothing. -/
theorem call_ofBytes (count : Nat) (bytes : Bytes) :
    call count (ofBytes bytes) = (elements bytes)[count]? := by
  fun_induction elements bytes generalizing count with
  | case1 id length rest hshort =>
    have hnext : (ofBytes (id :: length :: rest)).next =
        (some (.error (.invalidAttribute (.elementOverrun (rest.length + 2)))), ⟨rest, true⟩) :=
      if_pos hshort
    cases count with
    | zero => rw [call, hnext]; rfl
    | succ count => rw [call, hnext, call_of_hasFailed]; rfl
  | case2 id length rest hlong ih =>
    have hnext : (ofBytes (id :: length :: rest)).next =
        (some (.ok ⟨id, rest.take length.toNat⟩), ofBytes (rest.drop length.toNat)) :=
      if_neg hlong
    cases count with
    | zero => rw [call, hnext]; rfl
    | succ count => rw [call, hnext, ih, List.getElem?_cons_succ]
  | case3 bytes hshort =>
    have hnext : (ofBytes bytes).next = (none, ofBytes bytes) := by
      match bytes with
      | [] => rfl
      | [_] => rfl
      | id :: length :: rest => exact absurd rfl (hshort id length rest)
    induction count with
    | zero => rw [call, hnext]; rfl
    | succ count ih => rw [call, hnext, ih]; rfl

end Walk

/-- What is read from a row of elements. -/
structure IsRead (bytes : Bytes) : Prop where
  ok_iff (name : Bytes) : ssid bytes = .ok name ↔ Names bytes name
  missing_iff (which : String) : ssid bytes = .error (.missingAttribute which) ↔
    IsNameless bytes ∧ which = "SSID information element"
  invalid_iff (fault : AttributeFault) : ssid bytes = .error (.invalidAttribute fault) ↔
    ∃ left, Overruns bytes left ∧ fault = .elementOverrun left
  /-- Whatever neither has a name nor lacks one is invalid. -/
  otherwise : (∃ fault, ssid bytes = .error (.invalidAttribute fault)) ↔
    (∀ name, ¬ Names bytes name) ∧ ¬ IsNameless bytes
  /-- Call after call gives the elements, and from some call on nothing. -/
  call_eq (count : Nat) : Walk.call count (.ofBytes bytes) = (elements bytes)[count]?
  ends : ∃ count ≤ bytes.length / 2, ∀ more, Walk.call (count + more) (.ofBytes bytes) = none
  /-- After a fault a walk gives nothing, so that there is one at most. -/
  fault_last {count : Nat} {e : Error} (h : Walk.call count (.ofBytes bytes) = some (.error e))
    (more : Nat) : Walk.call (count + 1 + more) (.ofBytes bytes) = none

/-- The name is read from the rows that have one, and every other row is refused for what is wrong
with it. -/
theorem isRead (bytes : Bytes) : IsRead bytes := by
  constructor
  case ok_iff => exact fun name ↦ ssid_eq_ok_iff
  case missing_iff => exact fun which ↦ ssid_eq_missing_iff
  case invalid_iff => exact fun fault ↦ ssid_eq_invalid_iff
  case otherwise =>
    constructor
    · rintro ⟨fault, h⟩
      constructor
      · intro name hname
        simp [ssid_of_names hname] at h
      · intro hname
        simp [ssid_of_isNameless hname] at h
    · rintro ⟨hnone, hsome⟩
      rcases names_or_isNameless_or_overruns bytes with ⟨name, hname⟩ | hname | ⟨left, hname⟩
      · exact absurd hname (hnone name)
      · exact absurd hname hsome
      · exact ⟨.elementOverrun left, ssid_of_overruns hname⟩
  case call_eq => exact fun count ↦ Walk.call_ofBytes count bytes
  case ends =>
    refine ⟨(elements bytes).length, ?_, ?_⟩
    · have := length_elements_le bytes
      omega
    · intro more
      rw [Walk.call_ofBytes]
      exact List.getElem?_eq_none (by omega)
  case fault_last =>
    intro count e h more
    rw [Walk.call_ofBytes] at h ⊢
    have := length_of_getElem?_eq_error h
    exact List.getElem?_eq_none (by omega)

/-- A hidden network has an empty name, whatever follows; a name behind an element that is cut off
is not found. -/
example : ssid [3, 1, 6, 0, 0, 9] = .ok [] ∧
    ssid [1, 8, 2, 0, 1, 65] = .error (.invalidAttribute (.elementOverrun 6)) := by
  cbv

end WifiNetlink.Element
