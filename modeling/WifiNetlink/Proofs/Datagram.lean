import WifiNetlink.Proofs.Boundary

/-!
# Splitting datagrams

A datagram is split into messages exactly if it is a row of messages, each of which declares its own
length, with padding after each up to a four-byte boundary; the last padding may be cut short. There
is no other row that it could be split into, and nothing of a datagram that is no such row reaches
anybody: it is taken from its channel, and the callback or the exchange that took it goes on as if
there had been none.
-/

namespace WifiNetlink

namespace Datagram

/-- Whether a byte string is one message: it has room for a header, which declares its length. -/
structure IsMessage (m : Bytes) : Prop where
  header_le : 16 ≤ m.length
  declared : m.natAt 0 4 = m.length

/-- The rows of messages that byte strings pack. The padding of all but the last reaches the next
four-byte boundary. -/
inductive Packs : List Bytes → Bytes → Prop where
  | nil : Packs [] []
  | last {m pad : Bytes} (hm : IsMessage m) (hpad : m.length + pad.length ≤ align4 m.length) :
    Packs [m] (m ++ pad)
  | cons {m pad rest : Bytes} {ms : List Bytes} (hm : IsMessage m)
    (hpad : m.length + pad.length = align4 m.length) (hrest : Packs ms rest) :
    Packs (m :: ms) (m ++ pad ++ rest)

/-- A message at the start is split off. -/
theorem messages_append {m : Bytes} (hm : IsMessage m) (rest : Bytes) :
    messages (m ++ rest) = .ok m :: messages (rest.drop (align4 m.length - m.length)) := by
  have hne : (m ++ rest).isEmpty = false := by
    have := hm.header_le
    cases m with
    | nil => simp at this
    | cons b m => rfl
  obtain ⟨header, hread⟩ : ∃ header, MessageHeader.read (m ++ rest) = .ok header := by
    rw [MessageHeader.read, if_neg (by have := hm.header_le; rw [List.length_append]; omega)]
    exact ⟨_, rfl⟩
  have hdeclared : header.length.toNat = m.length := by
    rw [(MessageHeader.toBytes_of_read hread).2.2,
      Bytes.natAt_append_of_add_le _ (by have := hm.header_le; omega), hm.declared]
  have hfits : ¬ (header.length.toNat < 16 ∨ (m ++ rest).length < header.length.toNat) := by
    have := hm.header_le
    rw [hdeclared, List.length_append]
    omega
  rw [messages, hne]
  simp only [Bool.false_eq_true, if_false, hread]
  rw [dif_neg hfits, hdeclared, List.take_left, List.drop_append,
    List.drop_eq_nil_of_le (le_align4 m.length), List.nil_append]

/-- As many bytes as a header declares are a message, if there are as many and they have room for
the header. -/
theorem isMessage_take {data : Bytes} {header : MessageHeader}
    (hread : MessageHeader.read data = .ok header) (hleast : 16 ≤ header.length.toNat)
    (hmost : header.length.toNat ≤ data.length) :
    IsMessage (data.take header.length.toNat) := by
  have hlength : (data.take header.length.toNat).length = header.length.toNat := by
    rw [List.length_take]
    omega
  have hwhole :
      Bytes.natAt (data.take header.length.toNat ++ data.drop header.length.toNat) 0 4 =
        Bytes.natAt (data.take header.length.toNat) 0 4 := by
    apply Bytes.natAt_append_of_add_le
    omega
  rw [List.take_append_drop] at hwhole
  refine ⟨by omega, ?_⟩
  rw [hlength]
  exact hwhole.symm.trans (MessageHeader.toBytes_of_read hread).2.2.symm

/-- What is split off as a message is one. -/
theorem isMessage_of_mem {data m : Bytes} (hm : .ok m ∈ messages data) : IsMessage m := by
  fun_induction messages data with
  | case1 data hempty => contradiction
  | case2 data hempty e hread => simp at hm
  | case3 data hempty header hread hbad => simp at hm
  | case4 data hempty header hread hgood ih =>
    rcases List.mem_cons.mp hm with hfirst | hrest
    · rw [Except.ok.inj hfirst]
      exact isMessage_take hread (by omega) (by omega)
    · exact ih hrest

theorem Packs.isMessage {ms : List Bytes} {data : Bytes} (hp : Packs ms data) :
    ∀ m ∈ ms, IsMessage m := by
  induction hp with
  | nil => simp
  | last hm hpad => simpa using hm
  | cons hm hpad hrest ih => simpa using ⟨hm, ih⟩

theorem messages_of_packs {ms : List Bytes} {data : Bytes} (hp : Packs ms data) :
    messages data = ms.map .ok := by
  induction hp with
  | nil =>
    rw [messages]
    rfl
  | @last m pad hm hpad =>
    have hdrop : pad.drop (align4 m.length - m.length) = [] := List.drop_eq_nil_of_le (by omega)
    rw [messages_append hm, hdrop, messages]
    rfl
  | @cons m pad rest ms hm hpad hrest ih =>
    have hdrop : (pad ++ rest).drop (align4 m.length - m.length) = rest :=
      List.drop_left' (by omega)
    rw [List.append_assoc, messages_append hm, hdrop, ih]
    rfl

theorem packs_of_messages {ms : List Bytes} {data : Bytes} (hms : messages data = ms.map .ok) :
    Packs ms data := by
  fun_induction messages data generalizing ms with
  | case1 data hempty =>
    rw [List.isEmpty_iff.mp hempty, List.map_eq_nil_iff.mp hms.symm]
    exact .nil
  | case2 data hempty e hread =>
    obtain ⟨m, ms, rfl, hm, -⟩ := List.map_eq_cons_iff.mp hms.symm
    contradiction
  | case3 data hempty header hread hbad =>
    obtain ⟨m, ms, rfl, hm, -⟩ := List.map_eq_cons_iff.mp hms.symm
    contradiction
  | case4 data hempty header hread hgood ih =>
    obtain ⟨m, ms, rfl, hm, hrest⟩ := List.map_eq_cons_iff.mp hms.symm
    obtain rfl := Except.ok.inj hm
    have hmessage := isMessage_take hread (by omega) (by omega)
    have hlength : (data.take header.length.toNat).length = header.length.toNat := by
      rw [List.length_take]
      omega
    have hpad := le_align4 header.length.toNat
    -- The last message is the one whose padding does not end before the datagram does.
    by_cases hend : align4 header.length.toNat ≤ data.length
    · have hcons : Packs (data.take header.length.toNat :: ms)
          (data.take header.length.toNat ++ (data.drop header.length.toNat).take
            (align4 header.length.toNat - header.length.toNat) ++
            data.drop (align4 header.length.toNat)) := by
        refine .cons hmessage ?_ (ih hrest.symm)
        rw [hlength, List.length_take, List.length_drop]
        omega
      rwa [← List.take_add, Nat.add_sub_cancel' hpad, List.take_append_drop] at hcons
    · have hover : data.drop (align4 header.length.toNat) = [] := List.drop_eq_nil_of_le (by omega)
      have hms : ms = [] := by
        rw [hover, messages] at hrest
        exact List.map_eq_nil_iff.mp hrest
      rw [hms]
      have hlast : Packs [data.take header.length.toNat]
          (data.take header.length.toNat ++ data.drop header.length.toNat) := by
        refine .last hmessage ?_
        rw [List.length_drop, hlength]
        omega
      rwa [List.take_append_drop] at hlast

end Datagram

namespace Packet

/-- The bytes of a packet that is not too long are one message. -/
theorem isMessage_toBytes {p : Packet} (hp : p.length < UInt32.size) :
    Datagram.IsMessage p.toBytes := by
  have hdeclared : p.header.length.toNat = p.length := by
    rw [header, UInt32.toNat_ofNat']
    exact Nat.mod_eq_of_lt hp
  have hread : MessageHeader.read p.toBytes = .ok p.header :=
    MessageHeader.read_toBytes_append p.header p.body
  refine ⟨by rw [length_toBytes, length]; omega, ?_⟩
  rw [← (MessageHeader.toBytes_of_read hread).2.2, hdeclared, length_toBytes]

/-- A message is read as the packet that has its bytes. -/
theorem exists_parse_of_isMessage {m : Bytes} (hm : Datagram.IsMessage m) :
    ∃ p, parse m = .ok p ∧ p.toBytes = m := by
  have hleast := hm.header_le
  obtain ⟨header, hread⟩ : ∃ header, MessageHeader.read m = .ok header := by
    rw [MessageHeader.read, if_neg (by omega)]
    exact ⟨_, rfl⟩
  have hdeclared : header.length.toNat = m.length := by
    rw [(MessageHeader.toBytes_of_read hread).2.2, hm.declared]
  have hparse : parse m = .ok ⟨header.type, header.flags, header.sequence, header.port,
      m.drop 16⟩ := by
    simp only [parse, hread, hdeclared, List.take_length]
    rw [if_neg (by omega), if_neg (by omega)]
  refine ⟨_, hparse, (parse_eq_ok_iff.mp hparse).2.eq_of_length ?_⟩
  rw [length_toBytes, length, List.length_drop]
  omega

theorem exists_map_toBytes {ms : List Bytes} (hms : ∀ m ∈ ms, Datagram.IsMessage m) :
    ∃ ps : List Packet, ps.map toBytes = ms := by
  induction ms with
  | nil => exact ⟨[], rfl⟩
  | cons m ms ih =>
    obtain ⟨p, -, hp⟩ := exists_parse_of_isMessage (hms m (List.mem_cons_self ..))
    obtain ⟨ps, hps⟩ := ih fun m hm ↦ hms m (List.mem_cons_of_mem _ hm)
    exact ⟨p :: ps, by rw [List.map_cons, hp, hps]⟩

/-- A byte string that is a message is no longer than a header can declare. -/
theorem length_lt_of_isMessage {p : Packet} (hm : Datagram.IsMessage p.toBytes) :
    p.length < UInt32.size := by
  rw [← length_toBytes, ← hm.declared]
  exact Bytes.natAt_lt p.toBytes 0 4

/-- The messages that packets are read from. -/
private theorem eq_map_of_mapM {messages : List (Except Error Bytes)} {ps : List Packet}
    (hm : ∀ m, .ok m ∈ messages → Datagram.IsMessage m)
    (hps : (messages.mapM fun message ↦ message.bind parse) = .ok ps) :
    messages = (ps.map toBytes).map .ok := by
  induction messages generalizing ps with
  | nil =>
    obtain rfl : [] = ps := Except.ok.inj hps
    rfl
  | cons message messages ih =>
    rw [List.mapM_cons] at hps
    cases message with
    | error e => contradiction
    | ok m =>
      obtain ⟨p, hp, hbytes⟩ := exists_parse_of_isMessage (hm m (by simp))
      have hbind : (Except.ok m : Except Error Bytes).bind parse = .ok p := hp
      rw [hbind] at hps
      cases hrest : messages.mapM fun message ↦ message.bind parse with
      | error e =>
        rw [hrest] at hps
        contradiction
      | ok rest =>
        rw [hrest] at hps
        obtain rfl : p :: rest = ps := Except.ok.inj hps
        rw [ih (fun m hm' ↦ hm m (List.mem_cons_of_mem _ hm')) hrest, List.map_cons, List.map_cons,
          hbytes]

/-- The bytes of packets are read back. -/
private theorem mapM_map_toBytes {ps : List Packet} (hps : ∀ p ∈ ps, p.length < UInt32.size) :
    (((ps.map toBytes).map Except.ok).mapM fun message ↦ message.bind parse) =
      (.ok ps : Except Error (List Packet)) := by
  induction ps with
  | nil => rfl
  | cons p ps ih =>
    have hp : (Except.ok p.toBytes : Except Error Bytes).bind parse = .ok p :=
      parse_eq_ok_iff.mpr ⟨hps p (by simp), List.prefix_refl _⟩
    rw [List.map_cons, List.map_cons, List.mapM_cons, hp,
      ih fun q hq ↦ hps q (List.mem_cons_of_mem _ hq)]
    rfl

/-- A datagram is accepted exactly if it packs messages, and they are what is read. -/
theorem parseDatagram_eq_ok_iff {data : Bytes} {ps : List Packet} :
    parseDatagram data = .ok ps ↔ Datagram.Packs (ps.map toBytes) data := by
  constructor
  · intro hps
    exact Datagram.packs_of_messages (eq_map_of_mapM (fun m ↦ Datagram.isMessage_of_mem) hps)
  · intro hp
    rw [parseDatagram, Datagram.messages_of_packs hp]
    apply mapM_map_toBytes
    intro p hmem
    exact length_lt_of_isMessage (hp.isMessage _ (List.mem_map_of_mem hmem))

end Packet

namespace Machine

variable {σ ν : Type} (h : Host σ) (m : Machine σ ν)

/-- Whether a machine goes on after it read a datagram as if there had been none: it is no failure,
there is no message to dispatch, and when the callback or the exchange that read it goes on, nothing
has changed but the system and the journal. -/
structure PassesOver (data : Bytes) : Prop where
  receive {channel : Nat} {reception : Reception} {world : σ}
    (hr : h.receive channel m.transport.config.receiveBufferSize m.world = (.ok reception, world))
    (hd : reception.datagram = data) :
    m.receive h (some channel) = (.ok [], m.after world (.received channel (.ok reception)))
  /-- The callback of the watch returns. -/
  fireWatch {descriptor channel : Nat} {reception : Reception} {world : σ}
    (hc : m.transport.asyncChannel = some channel)
    (hr : h.receive channel m.transport.config.receiveBufferSize m.world = (.ok reception, world))
    (hd : reception.datagram = data) :
    ((m.fireWatch h descriptor).step h).step h =
      (m.after world (.received channel (.ok reception))).resume
  /-- The exchange waits again. -/
  turnExchange {x : Exchange σ ν} {channel : Nat} {reception : Reception} {earlier : Journal ν}
    (hj : (m.turnExchange h x).journal = .received channel (.ok reception) :: earlier)
    (hd : reception.datagram = data) :
    (∃ instant timeout, earlier =
      .polled channel timeout (.ok true) :: .clockRead instant :: m.journal) ∧
    (m.turnExchange h x).step h =
      { m with
        world := (m.turnExchange h x).world
        journal := .received channel (.ok reception) :: earlier
        stack := .collecting x :: m.stack
        control := .resume }

/-- When the messages of a datagram are dispatched the code below them goes on. -/
theorem step_dispatched : ((m.push (.dispatching [])).resume).step h = m.resume := by
  have ha : (m.push (.dispatching [])).resume.isAbandoned = false := by
    simp [isAbandoned, resume, push, Frame.keeps]
  rw [step, ha]
  rfl

/-- When the callback of a watch is done the code below it goes on. -/
theorem step_fired (descriptor : Nat) :
    ((m.push (.firing descriptor)).resume).step h = m.resume := by
  have ha : (m.push (.firing descriptor)).resume.isAbandoned = false := by
    simp [isAbandoned, resume, push, Frame.keeps]
  rw [step, ha]
  rfl

/-- A datagram that is not accepted has no message. -/
theorem messagesOf_of_malformed {reception : Reception} {e : Error}
    (he : Packet.parseDatagram reception.datagram = .error e) :
    messagesOf (.ok reception) = .ok [] := by
  simp only [messagesOf, he]

/-- The end of an exchange is no attempt to receive. -/
theorem journal_endExchange_ne (sequence : UInt32) (waiter : Waiter σ ν)
    (outcome : Except Error (List Packet)) {channel : Nat} {read : Except SystemFault Reception}
    {earlier : Journal ν} :
    (m.endExchange h sequence waiter outcome).journal ≠ .received channel read :: earlier := by
  intro hj
  obtain ⟨new, hnew, hwiring⟩ :=
    (wires_handReplies h (m.log (.exchangeEnded sequence outcome)) waiter outcome).journal
  have htop : new ++ .exchangeEnded sequence outcome :: m.journal =
      .received channel read :: earlier := hnew.symm.trans hj
  cases new with
  | nil => simp at htop
  | cons e new =>
    obtain rfl : e = .received channel read := (List.cons.inj htop).1
    simpa [Event.isWiring] using hwiring _ (List.mem_cons_self ..)

/-- A turn that takes a datagram has its messages dispatched before the exchange waits again. -/
theorem turnExchange_of_received {x : Exchange σ ν} {channel : Nat} {reception : Reception}
    {earlier : Journal ν}
    (hj : (m.turnExchange h x).journal = .received channel (.ok reception) :: earlier) :
    ∃ instant timeout world packets,
      earlier = .polled channel timeout (.ok true) :: .clockRead instant :: m.journal ∧
      messagesOf (.ok reception) = .ok packets ∧
      m.turnExchange h x =
        (({ m with world, journal := .received channel (.ok reception) :: earlier }.push
          (.collecting x)).push (.dispatching packets)).resume := by
  have hends (ready : Machine σ ν) (outcome : Except Error (List Packet)) :
      (ready.endExchange h x.sequence x.waiter outcome).journal ≠
        .received channel (.ok reception) :: earlier :=
    journal_endExchange_ne h ready x.sequence x.waiter outcome
  unfold turnExchange at hj ⊢
  by_cases hp : m.transport.pending.contains x.sequence = true
  · rcases hn : h.now m.world with ⟨instant, world⟩
    simp only [hp, if_true, readClock, hn, after] at hj ⊢
    split at hj
    · exact absurd hj (hends _ _)
    · next hbudget =>
      rw [if_neg hbudget]
      cases hc : m.transport.syncChannel with
      | none =>
        simp only [hc, poll] at hj
        exact absurd hj (hends _ _)
      | some descriptor =>
        rcases hw : h.poll descriptor (m.transport.config.syncTimeout.nanos - (instant - x.begun))
          world with ⟨waited, world'⟩
        simp only [hc, poll, hw, after] at hj ⊢
        cases waited with
        | error fault => exact absurd hj (hends _ _)
        | ok ready =>
          cases ready with
          | false => simp [Error.mapError_io_ok, resume, push] at hj
          | true =>
            rcases hr : h.receive descriptor m.transport.config.receiveBufferSize world'
              with ⟨outcome, world''⟩
            simp only [Error.mapError_io_ok, hc, receive, hr, after] at hj ⊢
            cases hmessages : messagesOf outcome with
            | error e =>
              rw [hmessages] at hj
              exact absurd hj (hends _ _)
            | ok packets =>
              rw [hmessages] at hj
              obtain ⟨htop, hrest⟩ := List.cons.inj hj
              obtain ⟨rfl, rfl⟩ := Event.received.inj htop
              exact ⟨instant, _, world'', packets, hrest.symm, hmessages, by rw [← hrest]⟩
  · simp only [hp, Bool.false_eq_true, if_false] at hj
    exact absurd hj (hends _ _)

/-- A datagram that is not accepted is passed over. -/
theorem passesOver_of_malformed {data : Bytes} {e : Error}
    (he : Packet.parseDatagram data = .error e) : m.PassesOver h data where
  receive := by
    rintro channel reception world hr rfl
    simp only [Machine.receive, hr, messagesOf_of_malformed he]
  fireWatch := by
    rintro descriptor channel reception world hc hr rfl
    have hfired : m.fireWatch h descriptor =
        (((m.after world (.received channel (.ok reception))).push (.firing descriptor)).push
          (.dispatching [])).resume := by
      simp only [Machine.fireWatch, Machine.receive, push, hc, hr, messagesOf_of_malformed he]
      rfl
    rw [hfired, step_dispatched, step_fired]
  turnExchange := by
    rintro x channel reception earlier hj rfl
    have hread := m.turnExchange_of_received h hj
    obtain ⟨instant, timeout, world, packets, hearlier, hpackets, hturn⟩ := hread
    rw [messagesOf_of_malformed he] at hpackets
    obtain rfl := Except.ok.inj hpackets
    refine ⟨⟨instant, timeout, hearlier⟩, ?_⟩
    rw [hturn, step_dispatched]
    rfl

end Machine

namespace Datagram

/-- A byte string that packs messages is read as just these, and no other is read as any; a machine
that takes such a datagram from a channel passes it over. -/
theorem accepted_or_passedOver (data : Bytes) :
    (∀ ms, Packs ms data → ∃ ps, Packet.parseDatagram data = .ok ps ∧ ps.map Packet.toBytes = ms) ∧
    (∀ ps, Packet.parseDatagram data = .ok ps → Packs (ps.map Packet.toBytes) data) ∧
    ((∀ ms, ¬ Packs ms data) → (∃ e, Packet.parseDatagram data = .error e) ∧
      ∀ {σ ν : Type} (h : Host σ) (m : Machine σ ν), m.PassesOver h data) := by
  have hparsed {ps : List Packet} (hps : Packet.parseDatagram data = .ok ps) :
      Packs (ps.map Packet.toBytes) data := Packet.parseDatagram_eq_ok_iff.mp hps
  refine ⟨?_, fun ps ↦ hparsed, ?_⟩
  · intro ms hp
    obtain ⟨ps, rfl⟩ := Packet.exists_map_toBytes hp.isMessage
    exact ⟨ps, Packet.parseDatagram_eq_ok_iff.mpr hp, rfl⟩
  · intro hnone
    cases hparse : Packet.parseDatagram data with
    | ok ps => exact absurd (hparsed hparse) (hnone _)
    | error e => exact ⟨⟨e, rfl⟩, fun h m ↦ m.passesOver_of_malformed h hparse⟩

/-- A message that does not end on a boundary. -/
def oddMessage : Bytes := (⟨28, 0, 7, 0, [34]⟩ : Packet).toBytes

/-- Two messages are read whatever their padding is, and none if three bytes too many follow. -/
theorem accepted_or_passedOver_oddMessage :
    (∃ ps, Packet.parseDatagram (oddMessage ++ [1, 2, 3] ++ (oddMessage ++ [4])) = .ok ps ∧
      ps.map Packet.toBytes = [oddMessage, oddMessage]) ∧
    (∀ ms, ¬ Packs ms (oddMessage ++ [0, 0, 0] ++ [0, 0, 0])) ∧
    ∃ e, Packet.parseDatagram (oddMessage ++ [0, 0, 0] ++ [0, 0, 0]) = .error e := by
  have hodd : IsMessage oddMessage := Packet.isMessage_toBytes (by decide)
  have hnone (ms : List Bytes) : ¬ Packs ms (oddMessage ++ [0, 0, 0] ++ [0, 0, 0]) := by
    intro hp
    obtain ⟨ps, hps, -⟩ := (accepted_or_passedOver _).1 ms hp
    have hfault : (Packet.parseDatagram (oddMessage ++ [0, 0, 0] ++ [0, 0, 0])).isOk = false := by
      cbv
    rw [hps] at hfault
    contradiction
  refine ⟨?_, hnone, ((accepted_or_passedOver _).2.2 hnone).1⟩
  exact (accepted_or_passedOver _).1 _ (.cons hodd (by decide) (.last hodd (by decide)))

end Datagram

end WifiNetlink
