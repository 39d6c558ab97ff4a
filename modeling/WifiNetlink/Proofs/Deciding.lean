import WifiNetlink.Proofs.Merging

/-!
# Deciding replies

Which reply to a dump decides its result. Main statement: the index of a wiphy is the one that the
last reply tells, if every reply tells one, and the interface is that of the first reply with a
usable one, whatever comes after it; otherwise the failure is that of the first reply with which
something is wrong.
-/

namespace WifiNetlink

/-! ### Rows that come to an entry -/

section

variable {α β ε : Type} {passed found : α → Prop} {x : α} {xs : List α} {f : α → Except ε β}

/-- Whether a row comes to an entry that is sought, past entries of another sort. -/
def ComesTo (passed found : α → Prop) (xs : List α) : Prop :=
  ∃ before x after, xs = before ++ x :: after ∧ (∀ y ∈ before, passed y) ∧ found x

theorem not_comesTo_nil : ¬ ComesTo passed found [] := by
  rintro ⟨before, x, after, hsplit, -, -⟩
  have hlength := congrArg List.length hsplit
  rw [List.length_append, List.length_cons, List.length_nil] at hlength
  omega

/-- The first entry is sought, or it is passed. -/
theorem comesTo_cons_iff :
    ComesTo passed found (x :: xs) ↔ found x ∨ passed x ∧ ComesTo passed found xs := by
  constructor
  · rintro ⟨before, y, after, hsplit, hbefore, hy⟩
    cases before with
    | nil =>
      obtain ⟨rfl, rfl⟩ := List.cons.inj hsplit
      exact .inl hy
    | cons z before =>
      obtain ⟨rfl, rfl⟩ := List.cons.inj hsplit
      rw [List.forall_mem_cons] at hbefore
      exact .inr ⟨hbefore.1, before, y, after, rfl, hbefore.2, hy⟩
  · rintro (hx | ⟨hx, before, y, after, rfl, hbefore, hy⟩)
    · exact ⟨[], x, xs, rfl, List.forall_mem_nil _, hx⟩
    · exact ⟨x :: before, y, after, rfl, List.forall_mem_cons.mpr ⟨hx, hbefore⟩, hy⟩

theorem comesTo_self (hx : found x) : ComesTo passed found (x :: xs) :=
  comesTo_cons_iff.mpr (.inl hx)

theorem ComesTo.cons (hx : passed x) (h : ComesTo passed found xs) :
    ComesTo passed found (x :: xs) :=
  comesTo_cons_iff.mpr (.inr ⟨hx, h⟩)

/-- What comes after the entry does not matter. -/
theorem ComesTo.append (h : ComesTo passed found xs) (more : List α) :
    ComesTo passed found (xs ++ more) := by
  obtain ⟨before, x, after, rfl, hbefore, hx⟩ := h
  exact ⟨before, x, after ++ more, by simp, hbefore, hx⟩

/-- Reading entry by entry fails at the first entry that cannot be read. -/
theorem mapM_eq_error_iff {e : ε} : xs.mapM f = .error e ↔
    ComesTo (fun x ↦ ∃ y, f x = .ok y) (fun x ↦ f x = .error e) xs := by
  induction xs with
  | nil => simp [not_comesTo_nil, pure, Except.pure]
  | cons x xs ih =>
    rw [comesTo_cons_iff, ← ih, List.mapM_cons]
    cases f x with
    | error e' => simp [bind, Except.bind]
    | ok y => cases xs.mapM f <;> simp [bind, Except.bind, pure, Except.pure]

theorem exists_mapM_eq_ok_iff :
    (∃ ys, xs.mapM f = .ok ys) ↔ ∀ x ∈ xs, ∃ y, f x = .ok y := by
  induction xs with
  | nil => simp [pure, Except.pure]
  | cons x xs ih =>
    rw [List.forall_mem_cons, ← ih, List.mapM_cons]
    cases f x with
    | error e => simp [bind, Except.bind]
    | ok y => cases xs.mapM f <;> simp [bind, Except.bind, pure, Except.pure]

end

namespace Query

open Operation

variable {family : UInt16} {p : Packet} {replies : List Packet} {e : Error}

/-! ### The wiphy -/

/-- Whether a reply tells the index of a wiphy. -/
structure TellsWiphy (family : UInt16) (p : Packet) (w : UInt32) : Prop where
  isReply : IsReply family .newWiphy p
  index : p.First WifiAttribute.wiphy (toPayload w)

/-- What is wrong with a message that tells none. -/
inductive FailsWiphy (family : UInt16) (p : Packet) : Error → Prop where
  | offence (e : Error) (h : Offends family .newWiphy "get wiphy" p e) : FailsWiphy family p e
  | unindexed (h : IsReply family .newWiphy p)
    (hi : ∀ w : UInt32, ¬ p.First WifiAttribute.wiphy (toPayload w)) :
    FailsWiphy family p (.missingAttribute "NL80211_ATTR_WIPHY")

/-- An index that a reply tells is read. -/
theorem wiphyIndexOf_of_tellsWiphy {w : UInt32} (h : TellsWiphy family p w) :
    wiphyIndexOf family p = .ok w := by
  rw [wiphyIndexOf, checkReply_of_isReply h.isReply, Packet.value?_eq_some_iff_first.mpr h.index]
  rfl

theorem wiphyIndexOf_of_failsWiphy (h : FailsWiphy family p e) :
    wiphyIndexOf family p = .error e := by
  cases h with
  | offence e h =>
    rw [wiphyIndexOf, checkReply_of_offends h]
    rfl
  | unindexed h hi =>
    have hnone : p.value? UInt32 WifiAttribute.wiphy = none := by
      apply Option.eq_none_iff_forall_ne_some.mpr
      intro w hw
      exact hi w (Packet.value?_eq_some_iff_first.mp hw)
    rw [wiphyIndexOf, checkReply_of_isReply h, hnone]
    rfl

/-- A message tells an index, or something is wrong with it. -/
theorem tellsWiphy_or_failsWiphy (family : UInt16) (p : Packet) :
    (∃ w, TellsWiphy family p w) ∨ ∃ e, FailsWiphy family p e := by
  rcases isReply_or_offends family .newWiphy "get wiphy" p with hp | ⟨e, he⟩
  · by_cases hi : ∃ w : UInt32, p.First WifiAttribute.wiphy (toPayload w)
    · obtain ⟨w, hw⟩ := hi
      exact .inl ⟨w, hp, hw⟩
    · exact .inr ⟨_, .unindexed hp fun w hw ↦ hi ⟨w, hw⟩⟩
  · exact .inr ⟨e, .offence e he⟩

theorem wiphyIndexOf_eq_ok_iff {w : UInt32} :
    wiphyIndexOf family p = .ok w ↔ TellsWiphy family p w := by
  apply eq_ok_iff_of_cases
  · exact fun _ ↦ wiphyIndexOf_of_tellsWiphy
  · rcases tellsWiphy_or_failsWiphy family p with hw | ⟨e, he⟩
    · exact .inl hw
    · exact .inr ⟨e, wiphyIndexOf_of_failsWiphy he⟩

theorem wiphyIndexOf_eq_error_iff : wiphyIndexOf family p = .error e ↔ FailsWiphy family p e := by
  apply eq_error_iff_of_cases
  · exact fun _ ↦ wiphyIndexOf_of_failsWiphy
  · rcases tellsWiphy_or_failsWiphy family p with ⟨w, hw⟩ | he
    · exact .inl ⟨w, wiphyIndexOf_of_tellsWiphy hw⟩
    · exact .inr he

/-- The replies before the last one count only if one of them fails. -/
private theorem conclude_wiphyIndex (before : List Packet) (p : Packet) :
    wiphyIndex.conclude family (.ok (before ++ [p])) =
      (before.mapM (wiphyIndexOf family)).bind fun _ ↦ wiphyIndexOf family p := by
  have hread : wiphyIndex.conclude family (.ok (before ++ [p])) =
      wiphyIndex.read family (before ++ [p]) := by
    cases before <;> rfl
  rw [hread]
  simp only [wiphyIndex, List.mapM_append, List.mapM_cons, List.mapM_nil]
  cases before.mapM (wiphyIndexOf family) with
  | error e => rfl
  | ok indices =>
    cases wiphyIndexOf family p with
    | error e => rfl
    | ok w => simp [bind, Except.bind, pure, Except.pure]

/-- How the replies to a dump of wiphys decide its result. -/
structure DecidesWiphy (family : UInt16) (replies : List Packet) (result : Except Error UInt32) :
    Prop where
  ok_iff (w : UInt32) : result = .ok w ↔
    (∀ p ∈ replies, ∃ v, TellsWiphy family p v) ∧
      ∃ p, replies.getLast? = some p ∧ TellsWiphy family p w
  error_iff (e : Error) : result = .error e ↔
    ComesTo (fun p ↦ ∃ v, TellsWiphy family p v) (fun p ↦ FailsWiphy family p e) replies

theorem decidesWiphy (hne : replies ≠ []) :
    DecidesWiphy family replies (wiphyIndex.conclude family (.ok replies)) := by
  obtain ⟨before, p, rfl⟩ := (List.eq_nil_or_concat' replies).resolve_left hne
  rw [conclude_wiphyIndex]
  constructor
  · intro w
    simp only [← wiphyIndexOf_eq_ok_iff, List.forall_mem_append, List.forall_mem_singleton,
      ← exists_mapM_eq_ok_iff, List.getLast?_append, List.getLast?_singleton, Option.some_or,
      Option.some.injEq, exists_eq_left']
    cases before.mapM (wiphyIndexOf family) with
    | error e => simp [Except.bind]
    | ok indices =>
      simp only [Except.bind, Except.ok.injEq, exists_eq', true_and]
      exact ⟨fun h ↦ ⟨⟨w, h⟩, h⟩, And.right⟩
  · intro e
    simp only [← wiphyIndexOf_eq_ok_iff, ← wiphyIndexOf_eq_error_iff, ← mapM_eq_error_iff,
      List.mapM_append, List.mapM_cons, List.mapM_nil]
    cases before.mapM (wiphyIndexOf family) with
    | error e => simp [bind, Except.bind]
    | ok indices => cases wiphyIndexOf family p <;> simp [bind, Except.bind, pure, Except.pure]

/-! ### The interface -/

/-- Whether an address is the one that a message tells first, or zero because that has not six
bytes. -/
def HasAddress (p : Packet) (mac : MacAddress) : Prop :=
  p.First WifiAttribute.mac mac.octets ∨
    (∀ other : MacAddress, ¬ p.First WifiAttribute.mac other.octets) ∧ mac = .zero

/-- Whether a message tells first a name that can be used. -/
structure TellsName (p : Packet) (name : String) : Prop where
  ne : name ≠ p2pDeviceName
  told : ∃ payload, p.First WifiAttribute.ifname payload ∧ ofPayload payload = .ok name

/-- Whether a message tells an interface that can be used. -/
structure TellsInterface (p : Packet) (i : Interface) : Prop where
  name : TellsName p i.name
  index : p.First WifiAttribute.ifindex (toPayload i.index)
  mac : HasAddress p i.mac

/-- Whether a reply is passed: it is one of the dump, without a name that can be used or without
an index. -/
structure IsPassed (family : UInt16) (p : Packet) : Prop where
  isReply : IsReply family .newInterface p
  unusable (name : String) (index : UInt32) (h : TellsName p name) :
    ¬ p.First WifiAttribute.ifindex (toPayload index)

theorem address_eq_iff {mac : MacAddress} :
    ((p.attribute? WifiAttribute.mac).bind fun bytes ↦
      (MacAddress.ofBytes bytes).toOption).getD .zero = mac ↔ HasAddress p mac := by
  rw [Option.getD_eq_iff, Option.eq_none_iff_forall_ne_some, @eq_comm _ MacAddress.zero]
  simp only [ne_eq, Option.bind_eq_some_iff, toOption_eq_some_iff, MacAddress.ofBytes_eq_ok_iff,
    Packet.attribute?_eq_some_iff, exists_eq_right]
  rfl

theorem usableInterface?_eq_some_iff {i : Interface} :
    usableInterface? p = some i ↔ TellsInterface p i := by
  constructor
  · intro h
    obtain ⟨name, hname, h⟩ := Option.bind_eq_some_iff.mp h
    by_cases hp2p : name = p2pDeviceName
    · rw [if_pos hp2p] at h
      contradiction
    · rw [if_neg hp2p] at h
      obtain ⟨index, hindex, h⟩ := Option.bind_eq_some_iff.mp h
      obtain rfl := Option.some.inj h
      exact ⟨⟨hp2p, Packet.value?_eq_some_iff.mp hname⟩,
        Packet.value?_eq_some_iff_first.mp hindex, address_eq_iff.mp rfl⟩
  · rintro ⟨⟨hp2p, hname⟩, hindex, hmac⟩
    rw [usableInterface?, Packet.value?_eq_some_iff.mpr hname,
      Packet.value?_eq_some_iff_first.mpr hindex]
    simp [hp2p, address_eq_iff.mpr hmac]

theorem isPassed_iff : IsPassed family p ↔
    checkReply family .newInterface "get interface" p = .ok () ∧ usableInterface? p = none := by
  rw [checkReply_eq_ok_iff, Option.eq_none_iff_forall_ne_some]
  constructor
  · intro h
    refine ⟨h.isReply, ?_⟩
    intro i hi
    have hi := usableInterface?_eq_some_iff.mp hi
    exact h.unusable i.name i.index hi.name hi.index
  · rintro ⟨hp, hnone⟩
    refine ⟨hp, ?_⟩
    intro name index hname hindex
    -- every message tells some address, if only the zero one
    apply hnone ⟨name, index, _⟩
    exact usableInterface?_eq_some_iff.mpr ⟨hname, hindex, address_eq_iff.mp rfl⟩

theorem firstInterface_eq_some_iff {i : Interface} :
    firstInterface family replies = .ok (some i) ↔ ComesTo (IsPassed family)
      (fun p ↦ IsReply family .newInterface p ∧ TellsInterface p i) replies := by
  simp only [← checkReply_eq_ok_iff "get interface", ← usableInterface?_eq_some_iff]
  induction replies with
  | nil => simp [firstInterface, not_comesTo_nil]
  | cons p rest ih =>
    rw [comesTo_cons_iff, ← ih, isPassed_iff, firstInterface]
    cases checkReply family .newInterface "get interface" p with
    | error e => simp
    | ok _ => cases usableInterface? p <;> simp

theorem firstInterface_eq_none_iff :
    firstInterface family replies = .ok none ↔ ∀ p ∈ replies, IsPassed family p := by
  simp only [isPassed_iff]
  induction replies with
  | nil => simp [firstInterface]
  | cons p rest ih =>
    rw [List.forall_mem_cons, ← ih, firstInterface]
    cases checkReply family .newInterface "get interface" p with
    | error e => simp
    | ok _ => cases usableInterface? p <;> simp

theorem firstInterface_eq_error_iff : firstInterface family replies = .error e ↔
    ComesTo (IsPassed family) (fun p ↦ Offends family .newInterface "get interface" p e)
      replies := by
  simp only [← checkReply_eq_error_iff]
  induction replies with
  | nil => simp [firstInterface, not_comesTo_nil]
  | cons p rest ih =>
    rw [comesTo_cons_iff, ← ih, isPassed_iff, firstInterface]
    cases checkReply family .newInterface "get interface" p with
    | error e => simp
    | ok _ => cases usableInterface? p <;> simp

/-- How the replies to a dump of interfaces decide its result. -/
structure DecidesInterface (family : UInt16) (wiphy : UInt32) (replies : List Packet)
    (result : Except Error Interface) : Prop where
  ok_iff (i : Interface) : result = .ok i ↔ ComesTo (IsPassed family)
    (fun p ↦ IsReply family .newInterface p ∧ TellsInterface p i) replies
  error_iff (e : Error) : result = .error e ↔
    ComesTo (IsPassed family) (fun p ↦ Offends family .newInterface "get interface" p e) replies ∨
      (∀ p ∈ replies, IsPassed family p) ∧ e = .noUsableInterface wiphy

theorem decidesInterface (wiphy : UInt32) (hne : replies ≠ []) :
    DecidesInterface family wiphy replies ((interface wiphy).conclude family (.ok replies)) := by
  have hread : (interface wiphy).conclude family (.ok replies) =
      (interface wiphy).read family replies := by
    cases replies with
    | nil => contradiction
    | cons p replies => rfl
  rw [hread]
  simp only [interface]
  constructor
  · intro i
    rw [← firstInterface_eq_some_iff]
    rcases firstInterface family replies with e | _ | i'
    · simp [bind, Except.bind]
    · simp [bind, Except.bind, throw, throwThe, MonadExceptOf.throw]
    · simp [bind, Except.bind, pure, Except.pure]
  · intro e
    rw [← firstInterface_eq_error_iff, ← firstInterface_eq_none_iff]
    rcases firstInterface family replies with e' | _ | i
    · simp [bind, Except.bind]
    · simp [bind, Except.bind, throw, throwThe, MonadExceptOf.throw, @eq_comm _ e]
    · simp [bind, Except.bind, pure, Except.pure]

/-! ### Dumps -/

/-- The replies to a dump decide its result: those to one of wiphys all have to tell an index, and
those to one of interfaces count up to the first with an interface that can be used. -/
theorem dumps_areDecided {r : Rehearsal} (hr : r.family = some family) (hne : replies ≠ []) :
    DecidesWiphy family replies ((r.replying replies).perform wiphyIndex).1 ∧
    ∀ wiphy,
      DecidesInterface family wiphy replies ((r.replying replies).perform (interface wiphy)).1 ∧
      ∀ i more, ((r.replying replies).perform (interface wiphy)).1 = .ok i →
        ((r.replying (replies ++ more)).perform (interface wiphy)).1 = .ok i := by
  rw [perform_wiphyIndex hr]
  refine ⟨decidesWiphy hne, ?_⟩
  intro wiphy
  rw [perform_interface hr]
  refine ⟨decidesInterface wiphy hne, ?_⟩
  intro i more hi
  rw [perform_interface hr]
  have hmore : replies ++ more ≠ [] := List.append_ne_nil_of_left_ne_nil hne more
  apply ((decidesInterface wiphy hmore).ok_iff i).mpr
  exact (((decidesInterface wiphy hne).ok_iff i).mp hi).append more

/-- An entry of a dump of interfaces. -/
def interfaceEntry (as : List Attribute) : Packet :=
  ⟨28, multiFlag, 1, 0, (CommandHeader.ofCommand Command.newInterface.number 1).toBytes ++
    Region.row as⟩

/-- A device without a name, one that is passed for its name, one without an address, and then a
refusal. -/
def interfaceDump : List Packet :=
  [interfaceEntry [word WifiAttribute.ifindex 2],
    interfaceEntry [⟨WifiAttribute.ifname, [112, 50, 112, 48, 0], by decide⟩,
      word WifiAttribute.ifindex 3],
    interfaceEntry [word WifiAttribute.ifindex 4,
      ⟨WifiAttribute.ifname, [119, 108, 97, 110, 48, 0], by decide⟩],
    ⟨errorType, 0, 1, 0, [255, 255, 255, 255]⟩]

/-- The refusal is never looked at. As a dump of wiphys the same messages fail at the first. -/
theorem interface_of_interfaceDump :
    (((⟨some 28, .fresh, [], []⟩ : Rehearsal).replying interfaceDump).perform (interface 0)).1 =
      .ok ⟨"wlan0", 4, .zero⟩ ∧
    (((⟨some 28, .fresh, [], []⟩ : Rehearsal).replying interfaceDump).perform wiphyIndex).1 =
      .error (.unexpectedCommand Command.newWiphy.number Command.newInterface.number) := by
  have hdecided := dumps_areDecided (r := ⟨some 28, .fresh, [], []⟩) rfl
    (show interfaceDump ≠ [] from nofun)
  constructor
  · apply ((hdecided.2 0).1.ok_iff _).mpr
    apply ComesTo.cons (isPassed_iff.mpr (by decide +kernel))
    apply ComesTo.cons (isPassed_iff.mpr (by decide +kernel))
    apply comesTo_self
    refine ⟨(checkReply_eq_ok_iff "get interface").mp (by decide), ?_⟩
    exact usableInterface?_eq_some_iff.mp (by decide +kernel)
  · apply (hdecided.1.error_iff _).mpr
    apply comesTo_self
    exact .offence _ (checkReply_eq_error_iff.mp (by decide))

end Query

end WifiNetlink
