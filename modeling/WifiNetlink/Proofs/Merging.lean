import Mathlib.Data.List.Basic
import WifiNetlink.Proofs.Building
import WifiNetlink.Proofs.Rehearsing
import WifiNetlink.Proofs.Reply

/-!
# Merging the fragments of a wiphy

The kernel tells of a wiphy in fragments, each of which carries a part of its attributes. However
these are cut, and whatever fragments of other wiphys come between, the result is that of a single
reply with all of them. It is a function of the attributes in a row: every channel that can be used
is in the list of its band, in order, and limits and features are those that were told last.
-/

namespace WifiNetlink

/-! ### Channels -/

/-- A channel that can be used. -/
structure Channel where
  frequency : UInt32
  hasDfsState : Bool
deriving Repr, DecidableEq

namespace Channel

/-- Whether the channel is one of the 2.4 GHz band. -/
def isIn2g (c : Channel) : Bool := Bands.isIn2g c.frequency

/-- Whether the channel is shared with radar. -/
def isDfs (c : Channel) : Bool := !c.isIn2g && c.hasDfsState

/-- Whether the channel is any other. -/
def isIn5g (c : Channel) : Bool := !c.isIn2g && !c.hasDfsState

/-- The channel of an entry, if it has a frequency and is not disabled. -/
def ofEntry? (entry : Bytes) : Option Channel :=
  match Region.value? UInt32 entry ChannelAttribute.frequency with
  | none => none
  | some frequency =>
    if (Region.find? entry ChannelAttribute.disabled).isSome then none
    else some ⟨frequency, (Region.find? entry ChannelAttribute.dfsState).isSome⟩

/-- The channels of a band, which has none if it has no list of them. -/
def ofBand (band : Bytes) : List Channel :=
  match Region.find? band BandAttribute.frequencies with
  | none => []
  | some entries => (Region.items entries).filterMap fun item ↦ ofEntry? item.payload

/-- The channels of a list of bands. -/
def ofBands (bands : Bytes) : List Channel :=
  (Region.items bands).flatMap fun item ↦ ofBand item.payload

/-- The channels in a row of attributes. -/
def ofItems (items : List Item) : List Channel :=
  (items.filter (·.kind == WifiAttribute.wiphyBands)).flatMap fun item ↦ ofBands item.payload

theorem ofItems_append_singleton (items : List Item) (item : Item) :
    ofItems (items ++ [item]) = ofItems items ++
      if item.kind = WifiAttribute.wiphyBands then ofBands item.payload else [] := by
  rw [ofItems, List.filter_append, List.flatMap_append, ← ofItems]
  by_cases hk : item.kind = WifiAttribute.wiphyBands
  · simp [hk]
  · simp [hk]

end Channel

namespace Bands

/-- The channels by band, each band in order. -/
def ofChannels (cs : List Channel) : Bands where
  band2g := (cs.filter Channel.isIn2g).map Channel.frequency
  band5g := (cs.filter Channel.isIn5g).map Channel.frequency
  bandDfs := (cs.filter Channel.isDfs).map Channel.frequency

/-- The channels with more of them. -/
def insertAll (b : Bands) (cs : List Channel) : Bands :=
  cs.foldl (fun b c ↦ b.insert c.frequency c.hasDfsState) b

/-- Inserting channels in two steps is inserting all of them. -/
theorem insertAll_append (b : Bands) (cs cs' : List Channel) :
    b.insertAll (cs ++ cs') = (b.insertAll cs).insertAll cs' := List.foldl_append ..

theorem insertAll_ofChannels (cs cs' : List Channel) :
    (ofChannels cs).insertAll cs' = ofChannels (cs ++ cs') := by
  induction cs' generalizing cs with
  | nil => rw [List.append_nil]; rfl
  | cons c cs' ih =>
    have hinsert : (ofChannels cs).insert c.frequency c.hasDfsState = ofChannels (cs ++ [c]) := by
      cases h2g : isIn2g c.frequency <;> cases hdfs : c.hasDfsState <;>
        simp [insert, ofChannels, Channel.isIn2g, Channel.isIn5g, Channel.isDfs, h2g, hdfs]
    rw [insertAll, List.foldl_cons, hinsert, ← insertAll, ih, List.append_assoc,
      List.singleton_append]

/-- Steps that each insert some channels insert all of them. -/
theorem foldl_eq_insertAll {α : Type} {push : Bands → α → Bands} {channels : α → List Channel}
    (hpush : ∀ b x, push b x = b.insertAll (channels x)) (b : Bands) (xs : List α) :
    xs.foldl push b = b.insertAll (xs.flatMap channels) := by
  induction xs generalizing b with
  | nil => rfl
  | cons x xs ih => rw [List.foldl_cons, hpush, ih, List.flatMap_cons, insertAll_append]

theorem pushChannel_eq (b : Bands) (entry : Bytes) :
    b.pushChannel entry = b.insertAll (Channel.ofEntry? entry).toList := by
  unfold pushChannel Channel.ofEntry?
  cases Region.value? UInt32 entry ChannelAttribute.frequency with
  | none => rfl
  | some frequency =>
    simp only
    split <;> rfl

theorem pushBand_eq (b : Bands) (band : Bytes) :
    b.pushBand band = b.insertAll (Channel.ofBand band) := by
  unfold pushBand Channel.ofBand
  cases Region.find? band BandAttribute.frequencies with
  | none => rfl
  | some entries =>
    simp only [List.filterMap_eq_flatMap_toList]
    exact foldl_eq_insertAll (fun b item ↦ b.pushChannel_eq item.payload) b _

theorem pushBands_eq (b : Bands) (bands : Bytes) :
    b.pushBands bands = b.insertAll (Channel.ofBands bands) :=
  foldl_eq_insertAll (fun b item ↦ b.pushBand_eq item.payload) b _

/-- The channels of all bands. -/
def all (b : Bands) : List UInt32 := b.band2g ++ (b.band5g ++ b.bandDfs)

/-- Every channel is in one list, once for each time it is told. -/
theorem perm_all_ofChannels (cs : List Channel) :
    (ofChannels cs).all.Perm (cs.map Channel.frequency) := by
  unfold all
  induction cs with
  | nil => exact List.Perm.refl []
  | cons c cs ih =>
    rw [List.map_cons]
    cases h2g : c.isIn2g with
    | true =>
      simp only [ofChannels, Channel.isIn5g, Channel.isDfs, h2g, List.filter_cons] at ih ⊢
      exact ih.cons c.frequency
    | false =>
      cases hdfs : c.hasDfsState with
      | true =>
        simp only [ofChannels, Channel.isIn5g, Channel.isDfs, h2g, hdfs, List.filter_cons] at ih ⊢
        rw [← List.append_assoc] at ih ⊢
        exact List.perm_middle.trans (ih.cons c.frequency)
      | false =>
        simp only [ofChannels, Channel.isIn5g, Channel.isDfs, h2g, hdfs, List.filter_cons] at ih ⊢
        exact List.perm_middle.trans (ih.cons c.frequency)

end Bands

/-! ### What is told last -/

namespace Item

/-- The payload of the last attribute of a kind. -/
def last? (items : List Item) (kind : UInt16) : Option Bytes :=
  (items.filter (·.kind == kind)).getLast?.map Item.payload

/-- The value of the last attribute of a kind, if its payload is one. -/
def lastValue? (α : Type) [Payload α] (items : List Item) (kind : UInt16) : Option α :=
  (last? items kind).bind fun payload ↦ (Payload.ofPayload payload : Except Error α).toOption

theorem last?_append_singleton (items : List Item) (item : Item) (kind : UInt16) :
    last? (items ++ [item]) kind =
      if item.kind = kind then some item.payload else last? items kind := by
  by_cases hk : item.kind = kind
  · simp [last?, hk]
  · simp [last?, hk]

theorem isSome_last?_iff {items : List Item} {kind : UInt16} :
    (last? items kind).isSome = true ↔ ∃ item ∈ items, item.kind = kind := by
  rw [last?, Option.isSome_map, List.getLast?_isSome, Ne, List.filter_eq_nil_iff]
  simp

theorem lastValue?_append_singleton {α : Type} [Payload α] (items : List Item) (item : Item)
    (kind : UInt16) : lastValue? α (items ++ [item]) kind =
      if item.kind = kind then (Payload.ofPayload item.payload : Except Error α).toOption
      else lastValue? α items kind := by
  rw [lastValue?, last?_append_singleton]
  split <;> rfl

/-- Whether the payload of an attribute has the width of its number, if it is to be read as one. -/
def isLegible (item : Item) : Bool :=
  if item.kind = WifiAttribute.maxNumScanSsids ∨ item.kind = WifiAttribute.maxNumSchedScanSsids ∨
    item.kind = WifiAttribute.maxMatchSets then item.payload.length == 1
  else if item.kind = WifiAttribute.featureFlags then item.payload.length == 4
  else true

end Item

/-- The wiphy that a row of attributes tells of. -/
def WiphyInfo.ofItems (items : List Item) : WiphyInfo where
  bands := .ofChannels (Channel.ofItems items)
  limits :=
    ⟨(Item.lastValue? UInt8 items WifiAttribute.maxNumScanSsids).getD 0,
      (Item.lastValue? UInt8 items WifiAttribute.maxNumSchedScanSsids).getD 0,
      (Item.lastValue? UInt8 items WifiAttribute.maxMatchSets).getD 0⟩
  features := .ofFlags ((Item.lastValue? UInt32 items WifiAttribute.featureFlags).getD 0)

theorem WiphyInfo.ofItems_append_singleton (items : List Item) (item : Item) :
    ofItems (items ++ [item]) =
      { bands :=
          if item.kind = WifiAttribute.wiphyBands then (ofItems items).bands.pushBands item.payload
          else (ofItems items).bands
        limits :=
          ⟨if item.kind = WifiAttribute.maxNumScanSsids then
              ((Payload.ofPayload item.payload : Except Error UInt8).toOption).getD 0
            else (ofItems items).limits.maxNumScanSsids,
            if item.kind = WifiAttribute.maxNumSchedScanSsids then
              ((Payload.ofPayload item.payload : Except Error UInt8).toOption).getD 0
            else (ofItems items).limits.maxNumSchedScanSsids,
            if item.kind = WifiAttribute.maxMatchSets then
              ((Payload.ofPayload item.payload : Except Error UInt8).toOption).getD 0
            else (ofItems items).limits.maxMatchSets⟩
        features :=
          if item.kind = WifiAttribute.featureFlags then
            .ofFlags ((Payload.ofPayload item.payload : Except Error UInt32).toOption.getD 0)
          else (ofItems items).features } := by
  have hbands : Bands.ofChannels (Channel.ofItems (items ++ [item])) =
      if item.kind = WifiAttribute.wiphyBands then (ofItems items).bands.pushBands item.payload
      else (ofItems items).bands := by
    rw [Channel.ofItems_append_singleton]
    split
    · rw [Bands.pushBands_eq, ofItems, Bands.insertAll_ofChannels]
    · rw [List.append_nil, ofItems]
  rw [ofItems, hbands]
  simp only [Item.lastValue?_append_singleton]
  congr 1
  · congr 1 <;> split <;> rfl
  · split <;> rfl

namespace Query

/-- Whether the payload is a number of that type is a matter of its width. -/
theorem isSome_ofPayload_u8 (payload : Bytes) :
    (Payload.ofPayload payload : Except Error UInt8).toOption.isSome = (payload.length == 1) := by
  by_cases h : payload.length = 1
  · simp [Payload.ofPayload, Payload.readNat, h, Except.map, Except.toOption]
  · simp [Payload.ofPayload, Payload.readNat, h, Except.map, Except.toOption]

theorem isSome_ofPayload_u32 (payload : Bytes) :
    (Payload.ofPayload payload : Except Error UInt32).toOption.isSome = (payload.length == 4) := by
  by_cases h : payload.length = 4
  · simp [Payload.ofPayload, Payload.readNat, h, Except.map, Except.toOption]
  · simp [Payload.ofPayload, Payload.readNat, h, Except.map, Except.toOption]

/-- What is made of the value of a property is made of the value of its payload. -/
theorem map_property_eq_ok_iff {α β : Type} [Payload α] {name : String} {payload : Bytes}
    {make : α → β} {b : β} (fallback : α) :
    make <$> property α name payload = .ok b ↔
      (Payload.ofPayload payload : Except Error α).toOption.isSome = true ∧
        b = make ((Payload.ofPayload payload : Except Error α).toOption.getD fallback) := by
  unfold property
  cases (Payload.ofPayload payload : Except Error α) with
  | ok value =>
    simp [Except.toOption, eq_comm]
  | error e => simp [Except.toOption]

namespace WiphyDraft

/-- The draft of a row of attributes. -/
def ofItems (items : List Item) : WiphyDraft where
  info := .ofItems items
  hasLimits := (Item.last? items WifiAttribute.maxNumScanSsids).isSome
  isMatched := true

theorem hasLimits_ofItems_append_singleton (items : List Item) (item : Item) :
    (ofItems (items ++ [item])).hasLimits =
      if item.kind = WifiAttribute.maxNumScanSsids then true else (ofItems items).hasLimits := by
  rw [ofItems, Item.last?_append_singleton]
  split <;> rfl

/-- One more attribute adds itself to the row, if it is legible. -/
theorem push_ofItems_eq_ok_iff {items : List Item} {item : Item} {d : WiphyDraft} :
    (ofItems items).push item = .ok d ↔ item.isLegible = true ∧ d = ofItems (items ++ [item]) := by
  have hrow : ofItems (items ++ [item]) = ⟨.ofItems (items ++ [item]),
      (ofItems (items ++ [item])).hasLimits, true⟩ := rfl
  rw [hrow, WiphyInfo.ofItems_append_singleton, hasLimits_ofItems_append_singleton]
  obtain ⟨kind, payload⟩ := item
  unfold push Item.isLegible
  dsimp only
  by_cases hbands : kind = WifiAttribute.wiphyBands
  · subst hbands
    simp +decide only [if_true, if_false, true_and]
    exact ⟨fun h ↦ (Except.ok.inj h).symm, fun h ↦ h ▸ rfl⟩
  by_cases hscan : kind = WifiAttribute.maxNumScanSsids
  · subst hscan
    simp +decide only [if_true, if_false, bind_pure_comp]
    rw [map_property_eq_ok_iff 0, isSome_ofPayload_u8]
    exact Iff.rfl
  by_cases hsched : kind = WifiAttribute.maxNumSchedScanSsids
  · subst hsched
    simp +decide only [if_true, if_false, bind_pure_comp]
    rw [map_property_eq_ok_iff 0, isSome_ofPayload_u8]
    exact Iff.rfl
  by_cases hsets : kind = WifiAttribute.maxMatchSets
  · subst hsets
    simp +decide only [if_true, if_false, bind_pure_comp]
    rw [map_property_eq_ok_iff 0, isSome_ofPayload_u8]
    exact Iff.rfl
  by_cases hflags : kind = WifiAttribute.featureFlags
  · subst hflags
    simp +decide only [if_true, if_false, bind_pure_comp]
    rw [map_property_eq_ok_iff 0, isSome_ofPayload_u32]
    exact Iff.rfl
  · simp only [hbands, hscan, hsched, hsets, hflags, if_false, or_self, true_and]
    exact ⟨fun h ↦ (Except.ok.inj h).symm, fun h ↦ h ▸ rfl⟩

/-- All further attributes add themselves to the row, if they are legible. -/
theorem foldlM_push_ofItems_eq_ok_iff {items more : List Item} {d : WiphyDraft} :
    more.foldlM push (ofItems items) = .ok d ↔
      (∀ item ∈ more, item.isLegible = true) ∧ d = ofItems (items ++ more) := by
  induction more generalizing items with
  | nil =>
    rw [List.foldlM_nil, List.append_nil]
    constructor
    · intro h
      exact ⟨List.forall_mem_nil _, (Except.ok.inj h).symm⟩
    · rintro ⟨-, rfl⟩
      rfl
  | cons item more ih =>
    rw [List.foldlM_cons, List.forall_mem_cons, List.append_cons, bind_eq_ok_iff]
    constructor
    · rintro ⟨d', hpush, hmore⟩
      obtain ⟨hitem, rfl⟩ := push_ofItems_eq_ok_iff.mp hpush
      obtain ⟨hrest, rfl⟩ := ih.mp hmore
      exact ⟨⟨hitem, hrest⟩, rfl⟩
    · rintro ⟨⟨hitem, hrest⟩, rfl⟩
      exact ⟨_, push_ofItems_eq_ok_iff.mpr ⟨hitem, rfl⟩, ih.mpr ⟨hrest, rfl⟩⟩

end WiphyDraft

end Query

/-! ### Fragments -/

namespace Packet

/-- The first attribute is the one that is read. -/
theorem value?_of_attributes {p : Packet} {kind : UInt16} {value : UInt32} {part : List Item}
    (h : p.attributes = ⟨kind, toPayload value⟩ :: part) : p.value? UInt32 kind = some value :=
  value?_eq_some_iff_first.mpr ⟨[], part, h, List.forall_mem_nil _⟩

/-- A reply to a dump of wiphys. -/
structure IsWiphyReply (family : UInt16) (p : Packet) : Prop where
  type_eq : p.type = family
  command_eq : p.command = Command.newWiphy.number

/-- A fragment of a wiphy: a reply whose first attribute is the index of the wiphy. -/
structure IsFragment (family : UInt16) (wiphy : UInt32) (part : List Item) (p : Packet) : Prop
    extends IsWiphyReply family p where
  attributes_eq : p.attributes = ⟨WifiAttribute.wiphy, toPayload wiphy⟩ :: part

/-- A fragment of another wiphy. -/
structure IsForeign (family : UInt16) (wiphy : UInt32) (p : Packet) : Prop
    extends IsWiphyReply family p where
  value_ne : p.value? UInt32 WifiAttribute.wiphy ≠ some wiphy

theorem IsWiphyReply.checkReply_eq {p : Packet} {family : UInt16} (hp : p.IsWiphyReply family)
    (name : String) : Operation.checkReply family .newWiphy name p = .ok () := by
  have hcommand : p.command ≠ 0 := by
    rw [hp.command_eq]
    decide
  have hfamily := leastFamilyType_le_of_command_ne hcommand
  exact Operation.checkReply_of_isReply ⟨kind_ne_error hfamily, hp.type_eq, hp.command_eq⟩

end Packet

namespace Query

/-- Replies to a dump: a fragment of the wiphy for each part, in order, and any fragments of others
between them. -/
inductive Dump (family : UInt16) (wiphy : UInt32) : List (List Item) → List Packet → Prop
  | nil : Dump family wiphy [] []
  | fragment {part : List Item} {parts : List (List Item)} {p : Packet} {replies : List Packet} :
    p.IsFragment family wiphy part → Dump family wiphy parts replies →
      Dump family wiphy (part :: parts) (p :: replies)
  | foreign {parts : List (List Item)} {p : Packet} {replies : List Packet} :
    p.IsForeign family wiphy → Dump family wiphy parts replies →
      Dump family wiphy parts (p :: replies)

namespace WiphyDraft

variable {family : UInt16} {wiphy : UInt32} {d : WiphyDraft} {p : Packet}

/-- A fragment adds its part. -/
theorem pushReply_of_isFragment {part : List Item} (hp : p.IsFragment family wiphy part) :
    d.pushReply family wiphy p = part.foldlM push { d with isMatched := true } := by
  have hreply := hp.checkReply_eq "get wiphy info"
  have hvalue := Packet.value?_of_attributes hp.attributes_eq
  have hindex : ({ d with isMatched := true } : WiphyDraft).push
      ⟨WifiAttribute.wiphy, toPayload wiphy⟩ = .ok { d with isMatched := true } := rfl
  unfold pushReply
  rw [hreply, hvalue, hp.attributes_eq, List.foldlM_cons, hindex]
  exact if_pos rfl

/-- A fragment of another wiphy adds nothing. -/
theorem pushReply_of_isForeign (hp : p.IsForeign family wiphy) :
    d.pushReply family wiphy p = .ok d := by
  have hreply := hp.checkReply_eq "get wiphy info"
  unfold pushReply
  rw [hreply]
  exact if_neg hp.value_ne

/-- Fragments after the first add their parts one after the other. -/
theorem foldlM_pushReply_ofItems {parts : List (List Item)} {replies : List Packet}
    (hd : Dump family wiphy parts replies) (items : List Item) :
    replies.foldlM (pushReply family wiphy) (ofItems items) =
      parts.flatten.foldlM push (ofItems items) := by
  induction hd generalizing items with
  | nil => rfl
  | fragment hp hd ih =>
    rw [List.foldlM_cons, pushReply_of_isFragment hp, List.flatten_cons, List.foldlM_append]
    -- What a part makes of a row is a row again, so that the rest adds to that.
    change List.foldlM push (ofItems items) _ >>= _ = _
    cases hpart : List.foldlM push (ofItems items) _ with
    | error e => rfl
    | ok d =>
      obtain ⟨-, rfl⟩ := foldlM_push_ofItems_eq_ok_iff.mp hpart
      exact ih _
  | foreign hp hd ih =>
    rw [List.foldlM_cons, pushReply_of_isForeign hp]
    exact ih items

/-- The first fragment matches the wiphy, and from then on all parts add up. -/
theorem foldlM_pushReply_empty {first : List Item} {rest : List (List Item)}
    {replies : List Packet} (hd : Dump family wiphy (first :: rest) replies) :
    replies.foldlM (pushReply family wiphy) ⟨.empty, false, false⟩ =
      (first :: rest).flatten.foldlM push (ofItems []) := by
  generalize hparts : first :: rest = parts at hd
  induction hd with
  | nil => contradiction
  | fragment hp hd ih =>
    rw [← foldlM_pushReply_ofItems (.fragment hp hd) [], List.foldlM_cons, List.foldlM_cons,
      pushReply_of_isFragment hp, pushReply_of_isFragment hp]
    rfl
  | foreign hp hd ih =>
    rw [List.foldlM_cons, pushReply_of_isForeign hp]
    exact ih hparts

/-- A draft is complete if the scan limits were told. -/
theorem finish_ofItems_eq_ok_iff {items : List Item} {info : WiphyInfo} :
    (ofItems items).finish = .ok info ↔
      (∃ item ∈ items, item.kind = WifiAttribute.maxNumScanSsids) ∧ info = .ofItems items := by
  rw [← Item.isSome_last?_iff]
  have hfinish : (ofItems items).finish =
      if !(Item.last? items WifiAttribute.maxNumScanSsids).isSome then
        .error (.missingAttribute "NL80211_ATTR_MAX_NUM_SCAN_SSIDS")
      else .ok (.ofItems items) := rfl
  rw [hfinish]
  cases Item.last? items WifiAttribute.maxNumScanSsids with
  | none => simp
  | some payload => simp [eq_comm]

end WiphyDraft

variable {family : UInt16} {wiphy : UInt32} {first : List Item} {rest : List (List Item)}
  {replies : List Packet}

/-- What is made of a dump is what is made of the attributes in a row. -/
theorem conclude_wiphyInfo (hd : Dump family wiphy (first :: rest) replies) :
    (wiphyInfo wiphy).conclude family (.ok replies) =
      (first :: rest).flatten.foldlM WiphyDraft.push (.ofItems []) >>= WiphyDraft.finish := by
  rw [← WiphyDraft.foldlM_pushReply_empty hd]
  cases hd with
  | fragment hp hd => rfl
  | foreign hp hd => rfl

/-- However the attributes of a wiphy are cut into fragments, one at least, and whatever fragments
of other wiphys come between these, the result is that of a single reply with all attributes: the
wiphy that they tell of, if they can be read and the scan limits are among them. -/
theorem wiphyInfo_of_dump {family : UInt16} {wiphy : UInt32} {items first : List Item}
    {rest : List (List Item)} {replies : List Packet} {whole : Packet} {r : Rehearsal}
    (hcut : (first :: rest).flatten = items) (hd : Dump family wiphy (first :: rest) replies)
    (hw : whole.IsFragment family wiphy items) (hr : r.family = some family) :
    ((r.replying replies).perform (wiphyInfo wiphy)).1 =
        ((r.replying [whole]).perform (wiphyInfo wiphy)).1 ∧
      (∀ info, ((r.replying replies).perform (wiphyInfo wiphy)).1 = .ok info ↔
        (∀ item ∈ items, item.isLegible = true) ∧
        (∃ item ∈ items, item.kind = WifiAttribute.maxNumScanSsids) ∧ info = .ofItems items) ∧
      (WiphyInfo.ofItems items).bands.all.Perm ((Channel.ofItems items).map Channel.frequency) := by
  have hwhole := conclude_wiphyInfo (.fragment hw .nil)
  rw [List.flatten_singleton] at hwhole
  rw [perform_wiphyInfo hr, perform_wiphyInfo hr, conclude_wiphyInfo hd, hcut, hwhole]
  refine ⟨rfl, fun info ↦ ?_, Bands.perm_all_ofChannels _⟩
  rw [bind_eq_ok_iff]
  constructor
  · rintro ⟨d, hpush, hfinish⟩
    obtain ⟨hlegible, rfl⟩ := WiphyDraft.foldlM_push_ofItems_eq_ok_iff.mp hpush
    exact ⟨hlegible, WiphyDraft.finish_ofItems_eq_ok_iff.mp hfinish⟩
  · rintro ⟨hlegible, hfinish⟩
    exact ⟨_, WiphyDraft.foldlM_push_ofItems_eq_ok_iff.mpr ⟨hlegible, rfl⟩,
      WiphyDraft.finish_ofItems_eq_ok_iff.mpr hfinish⟩

/-! ### A dump in two fragments -/

/-- An attribute with other attributes in a row. -/
def container (type : UInt16) (as : List Attribute)
    (fits : (Region.row as).length ≤ maxPayload) : Attribute :=
  ⟨type ||| nestedFlag, Region.row as, fits⟩

/-- A number of four bytes. -/
def word (type : UInt16) (n : UInt32) : Attribute :=
  ⟨type, toPayload n, by simp [toPayload, maxPayload]⟩

/-- A list of one band, with a channel of 2.4 GHz, one shared with radar and one disabled. -/
def radarBands : Attribute :=
  container WifiAttribute.wiphyBands [container 0 [container BandAttribute.frequencies
    [container 0 [word ChannelAttribute.frequency 2412] (by decide),
      container 1 [word ChannelAttribute.frequency 5260, word ChannelAttribute.dfsState 0]
        (by decide),
      container 2 [word ChannelAttribute.frequency 5845, .flag ChannelAttribute.disabled]
        (by decide)]
    (by decide)] (by decide)] (by decide)

/-- A list of one band with a channel that is not shared. -/
def plainBands : Attribute :=
  container WifiAttribute.wiphyBands [container 0 [container BandAttribute.frequencies
    [container 0 [word ChannelAttribute.frequency 5180] (by decide)]
    (by decide)] (by decide)] (by decide)

/-- How many networks a scan can look for. -/
def scanLimit : Attribute := ⟨WifiAttribute.maxNumScanSsids, [4], by decide⟩

/-- A reply to a dump: a part of what there is to tell of a wiphy. -/
def dumpReply (wiphy : UInt32) (part : List Attribute) : Packet :=
  ⟨28, multiFlag, 1, 0, (CommandHeader.ofCommand Command.newWiphy.number 1).toBytes ++
    Region.row (word WifiAttribute.wiphy wiphy :: part)⟩

theorem hasRow_dumpReply (wiphy : UInt32) (part : List Attribute) :
    (dumpReply wiphy part).HasRow (.ofCommand Command.newWiphy.number 1)
      (word WifiAttribute.wiphy wiphy :: part) := rfl

theorem isFragment_dumpReply (wiphy : UInt32) (part : List Attribute) :
    (dumpReply wiphy part).IsFragment 28 wiphy (part.map Attribute.item) where
  type_eq := rfl
  command_eq := (hasRow_dumpReply wiphy part).command_eq (show leastFamilyType ≤ 28 by decide)
  attributes_eq := by
    have hkind : kindOf WifiAttribute.wiphy = WifiAttribute.wiphy := by decide
    have hfamily : leastFamilyType ≤ (dumpReply wiphy part).type :=
      show leastFamilyType ≤ 28 by decide
    rw [Packet.attributes, (hasRow_dumpReply wiphy part).region_eq hfamily, Region.items_row,
      List.map_cons, word, Attribute.item, Attribute.kind, hkind]

theorem isForeign_dumpReply {other wiphy : UInt32} {part : List Attribute} (h : other ≠ wiphy) :
    (dumpReply other part).IsForeign 28 wiphy where
  type_eq := rfl
  command_eq := (isFragment_dumpReply other part).command_eq
  value_ne := by
    rw [Packet.value?_of_attributes (isFragment_dumpReply other part).attributes_eq]
    exact fun he ↦ h (Option.some.inj he)

theorem ofItems_channels :
    Channel.ofItems ([radarBands, scanLimit, plainBands].map Attribute.item) =
      [⟨2412, false⟩, ⟨5260, true⟩, ⟨5180, false⟩] := by
  simp +decide [Channel.ofItems, Channel.ofBands, Channel.ofBand, Channel.ofEntry?, radarBands,
    plainBands, scanLimit, container, word, Attribute.item, Region.find?, Region.value?,
    Except.toOption]

/-- The two fragments with one of another wiphy between them. -/
theorem wiphyInfo_of_twoFragments :
    (((⟨some 28, .fresh, [], []⟩ : Rehearsal).replying
      [dumpReply 0 [radarBands, scanLimit], dumpReply 1 [plainBands],
        dumpReply 0 [plainBands]]).perform (wiphyInfo 0)).1 =
      .ok ⟨⟨[2412], [5180], [5260]⟩, ⟨4, 0, 0⟩, ⟨false, false⟩⟩ := by
  have hd : Dump 28 0 ([radarBands, scanLimit].map Attribute.item ::
      [[plainBands].map Attribute.item])
      [dumpReply 0 [radarBands, scanLimit], dumpReply 1 [plainBands], dumpReply 0 [plainBands]] :=
    .fragment (isFragment_dumpReply 0 _)
      (.foreign (isForeign_dumpReply (by decide)) (.fragment (isFragment_dumpReply 0 _) .nil))
  have hw := isFragment_dumpReply 0 [radarBands, scanLimit, plainBands]
  have hinfo : WiphyInfo.ofItems ([radarBands, scanLimit, plainBands].map Attribute.item) =
      ⟨⟨[2412], [5180], [5260]⟩, ⟨4, 0, 0⟩, ⟨false, false⟩⟩ := by
    rw [WiphyInfo.ofItems, ofItems_channels]
    decide
  apply ((wiphyInfo_of_dump rfl hd hw rfl).2.1 _).mpr
  exact ⟨by decide, ⟨scanLimit.item, by decide⟩, hinfo.symm⟩

end Query

end WifiNetlink
