import WifiNetlink.Proofs.Span
import WifiNetlink.Wire.Packet

/-!
# Regions that are cut short

A message may end before its attributes do, anywhere: in a header, in a payload, in padding or on a
boundary. What is then still found are the attributes that ended before, as they were. Main
statement: of a region that is cut at an offset a walk gives just the attributes that end by the
offset, and looking for a kind gives the answer of the whole region if its first attribute is one of
these, and none otherwise.
-/

namespace WifiNetlink

namespace Region

variable {places : List Span}

/-- Behind an attribute that ends beyond an offset all others do. -/
private theorem filter_stop_of_lt {s : Span} {c : Nat}
    (h : (s :: places).Pairwise fun s t ↦ s.stop ≤ t.start) (hc : c < s.stop) :
    (s :: places).filter (fun t ↦ t.stop ≤ c) = [] := by
  apply List.filter_eq_nil_iff.mpr
  intro t ht
  have hstop : s.stop ≤ t.stop := by
    rcases List.mem_cons.mp ht with rfl | ht
    · exact Nat.le_refl _
    · exact Nat.le_trans ((List.pairwise_cons.mp h).1 t ht) (Nat.le_add_right _ _)
  simp only [decide_eq_true_eq]
  omega

/-- The attributes that end by an offset come first. -/
theorem filter_stop_isPrefix (h : places.Pairwise fun s t ↦ s.stop ≤ t.start) (c : Nat) :
    places.filter (fun s ↦ s.stop ≤ c) <+: places := by
  induction places with
  | nil => exact List.prefix_refl _
  | cons s places ih =>
    by_cases hc : s.stop ≤ c
    · rw [List.filter_cons_of_pos (by simpa using hc), List.prefix_cons_inj]
      exact ih (List.pairwise_cons.mp h).2
    · rw [filter_stop_of_lt h (by omega)]
      exact List.nil_prefix

/-- Among the attributes that end by an offset the first with a property is the first of all, if
that ends by the offset. -/
theorem find?_filter_stop (h : places.Pairwise fun s t ↦ s.stop ≤ t.start) (c : Nat)
    (p : Span → Bool) :
    (places.filter fun s ↦ s.stop ≤ c).find? p = (places.find? p).filter fun s ↦ s.stop ≤ c := by
  induction places with
  | nil => rfl
  | cons s places ih =>
    by_cases hc : s.stop ≤ c
    · rw [List.filter_cons_of_pos (by simpa using hc)]
      cases hp : p s with
      | true =>
        rw [List.find?_cons_of_pos hp, List.find?_cons_of_pos hp, Option.filter_some_pos]
        simpa using hc
      | false =>
        rw [List.find?_cons_of_neg (by simp [hp]), List.find?_cons_of_neg (by simp [hp])]
        exact ih (List.pairwise_cons.mp h).2
    · have hnone := filter_stop_of_lt h (Nat.lt_of_not_le hc)
      rw [hnone]
      symm
      apply Option.filter_eq_none_iff.mpr
      intro t ht
      exact (List.filter_eq_nil_iff.mp hnone) t (List.mem_of_find?_eq_some ht)

variable {data : Bytes} {c start : Nat}

/-- What is read before a cut is read in the whole. -/
theorem natAt_take {count : Nat} (h : start + count ≤ c) :
    Bytes.natAt (data.take c) start count = data.natAt start count := by
  rw [Bytes.natAt, Bytes.natAt, List.drop_take, List.take_take, Nat.min_eq_left (by omega)]

/-- An attribute stands before a cut exactly if it stands in the whole and ends by the cut. -/
theorem stands_take_iff :
    Stands (data.take c) start ↔ Stands data start ∧ (spanAt data start).stop ≤ c := by
  have hlength : (data.take c).length = min c data.length := List.length_take
  constructor
  · rintro ⟨hheader, hleast, hmost⟩
    rw [natAt_take (by omega)] at hleast hmost
    refine ⟨⟨?_, hleast, ?_⟩, ?_⟩
    · omega
    · omega
    · change start + data.natAt start 2 ≤ c
      omega
  · rintro ⟨⟨hheader, hleast, hmost⟩, hstop⟩
    change start + data.natAt start 2 ≤ c at hstop
    refine ⟨?_, ?_, ?_⟩
    · omega
    · rwa [natAt_take (by omega)]
    · rw [natAt_take (by omega)]
      omega

theorem spanAt_take (h : (spanAt data start).stop ≤ c) (hs : Stands data start) :
    spanAt (data.take c) start = spanAt data start := by
  have hleast := hs.2.1
  change start + data.natAt start 2 ≤ c at h
  rw [spanAt, natAt_take (by omega)]
  rfl

/-- The attributes of a region that is cut are those that end by the cut. -/
theorem spansFrom_take (data : Bytes) (c start : Nat) :
    spansFrom (data.take c) start = (spansFrom data start).filter fun s ↦ s.stop ≤ c := by
  fun_induction spansFrom data start with
  | case1 start h ih =>
    by_cases hc : (spanAt data start).stop ≤ c
    · rw [spansFrom_of_stands (stands_take_iff.mpr ⟨h, hc⟩), spanAt_take hc h, ih,
        List.filter_cons_of_pos (by simpa using hc)]
    · have hsorted := pairwise_spansFrom data start
      rw [spansFrom_of_stands h] at hsorted
      rw [spansFrom_of_not_stands fun hs ↦ hc (stands_take_iff.mp hs).2,
        filter_stop_of_lt hsorted (Nat.lt_of_not_le hc)]
  | case2 start h =>
    exact spansFrom_of_not_stands fun hs ↦ h (stands_take_iff.mp hs).1

/-- An attribute that ends by the cut is what it was. -/
theorem item_take {s : Span} (hs : s ∈ spans data) (hc : s.stop ≤ c) :
    s.item (data.take c) = s.item data := by
  have hleast : 4 ≤ s.length := (fits_of_mem_spansFrom hs).1
  change s.start + s.length ≤ c at hc
  rw [Span.item, Span.item, natAt_take (by omega), Span.payload, Span.payload, List.drop_take,
    List.take_take, Nat.min_eq_left (by omega)]

theorem items_take (data : Bytes) (c : Nat) :
    items (data.take c) =
      ((spans data).filter fun s ↦ s.stop ≤ c).map (Span.item data) := by
  rw [items_eq_map_spans, spans, spansFrom_take]
  apply List.map_congr_left
  intro s hs
  obtain ⟨hs, hc⟩ := List.mem_filter.mp hs
  exact item_take hs (by simpa using hc)

/-- The place of the first attribute of a kind. -/
def first? (data : Bytes) (kind : UInt16) : Option Span :=
  (spans data).find? fun s ↦ (s.item data).kind == kind

/-- Whether there is an attribute of a kind and the first of them ends by an offset. -/
def endsBy (data : Bytes) (kind : UInt16) (c : Nat) : Bool :=
  (first? data kind).any fun s ↦ s.stop ≤ c

theorem find?_eq_map_first? (data : Bytes) (kind : UInt16) :
    find? data kind = (first? data kind).map (Span.payload data) := by
  rw [find?, items_eq_map_spans, List.find?_map, Option.map_map]
  rfl

theorem value?_eq_bind_first? (α : Type) [Payload α] (data : Bytes) (kind : UInt16) :
    value? α data kind = (first? data kind).bind fun s ↦
      (Payload.ofPayload (s.payload data) : Except Error α).toOption := by
  rw [value?, find?_eq_map_first?, Option.bind_map]
  rfl

/-- Looking for a kind in a region that is cut gives the payload of its first attribute in the
whole, if that ends by the cut. -/
theorem find?_take (data : Bytes) (c : Nat) (kind : UInt16) :
    find? (data.take c) kind =
      ((first? data kind).filter fun s ↦ s.stop ≤ c).map (Span.payload data) := by
  have hfirst := find?_filter_stop (pairwise_spansFrom data 0) c fun s ↦ (s.item data).kind == kind
  change _ = (first? data kind).filter _ at hfirst
  rw [find?, items_take, List.find?_map, Option.map_map, ← hfirst]
  rfl

/-- The same, in terms of the answer for the whole region. -/
theorem find?_take_eq_ite (data : Bytes) (c : Nat) (kind : UInt16) :
    find? (data.take c) kind = if endsBy data kind c then find? data kind else none := by
  rw [find?_take, find?_eq_map_first?, endsBy]
  cases first? data kind with
  | none => rfl
  | some s =>
    by_cases hc : s.stop ≤ c
    · simp [hc, Option.filter]
    · simp [hc, Option.filter]

theorem value?_take_eq_ite (α : Type) [Payload α] (data : Bytes) (c : Nat) (kind : UInt16) :
    value? α (data.take c) kind = if endsBy data kind c then value? α data kind else none := by
  rw [value?, find?_take_eq_ite]
  split
  · rfl
  · rfl

end Region

namespace Attribute

/-- A container whose payload is cut at an offset. -/
def cut (a : Attribute) (c : Nat) : Attribute where
  type := a.type
  payload := a.payload.take c
  fits := Nat.le_trans (List.length_take_le' c a.payload) a.fits

end Attribute

namespace Packet

/-- A packet whose row of attributes is cut at an offset. -/
def cut (p : Packet) (c : Nat) : Packet := { p with body := p.body.take (4 + c) }

theorem commandHeader?_cut (p : Packet) (c : Nat) :
    (p.cut c).commandHeader? = p.commandHeader? := by
  have hread (body : Bytes) :
      CommandHeader.read? (body.take (4 + c)) = CommandHeader.read? body := by
    rw [Nat.add_comm 4 c]
    match body with
    | [] | [_] | [_, _] | [_, _, _] | _ :: _ :: _ :: _ :: _ => rfl
  rw [commandHeader?, commandHeader?]
  exact congrArg _ (hread p.body)

theorem region_cut (p : Packet) (c : Nat) : (p.cut c).region = p.region.take c := by
  rw [region, region, commandHeader?_cut]
  split
  · rw [List.take_nil]
  · rw [cut, List.drop_take, Nat.add_sub_cancel_left]

end Packet

namespace Region

/-- What is found in a region that is cut at an offset, be it one by itself, the payload of a
container or the attributes of a packet. -/
structure IsCutSafe (data : Bytes) (c : Nat) : Prop where
  whole_eq : items data = (spans data).map (Span.item data)
  items_eq : items (data.take c) =
    ((spans data).filter fun s ↦ s.stop ≤ c).map (Span.item data)
  items_isPrefix : items (data.take c) <+: items data
  /-- In the whole region it is the first attribute of a kind that is found, -/
  find?_whole (kind : UInt16) : find? data kind = (first? data kind).map (Span.payload data)
  value?_whole (α : Type) [Payload α] (kind : UInt16) : value? α data kind =
    (first? data kind).bind fun s ↦ (Payload.ofPayload (s.payload data) : Except Error α).toOption
  /-- and so it is in the cut one, if that attribute ends by the cut. -/
  find?_eq (kind : UInt16) :
    find? (data.take c) kind = if endsBy data kind c then find? data kind else none
  value?_eq (α : Type) [Payload α] (kind : UInt16) :
    value? α (data.take c) kind = if endsBy data kind c then value? α data kind else none
  /-- What is found lies before the cut and is of the first attribute of the kind. -/
  find?_within {kind : UInt16} {payload : Bytes} (h : find? (data.take c) kind = some payload) :
    ∃ s, first? data kind = some s ∧ s.stop ≤ c ∧ payload = s.payload data
  child?_eq {a : Attribute} (ha : a.payload = data) (kind : UInt16) :
    (a.cut c).child? kind = if endsBy data kind c then a.child? kind else none
  childValue?_eq (α : Type) [Payload α] {a : Attribute} (ha : a.payload = data) (kind : UInt16) :
    (a.cut c).childValue? α kind = if endsBy data kind c then a.childValue? α kind else none
  attribute?_eq {p : Packet} (hp : p.region = data) (kind : UInt16) :
    (p.cut c).attribute? kind = if endsBy data kind c then p.attribute? kind else none
  packetValue?_eq (α : Type) [Payload α] {p : Packet} (hp : p.region = data) (kind : UInt16) :
    (p.cut c).value? α kind = if endsBy data kind c then p.value? α kind else none

/-- Wherever a region is cut, what is found are the attributes that end by the cut, and nothing
that the whole region would not give. -/
theorem isCutSafe_take (data : Bytes) (c : Nat) : IsCutSafe data c := by
  constructor
  case whole_eq => exact items_eq_map_spans data
  case items_eq => exact items_take data c
  case items_isPrefix =>
    rw [items_take, items_eq_map_spans]
    exact (filter_stop_isPrefix (pairwise_spansFrom data 0) c).map _
  case find?_whole => exact find?_eq_map_first? data
  case value?_whole =>
    intro α _ kind
    exact value?_eq_bind_first? α data kind
  case find?_eq => exact find?_take_eq_ite data c
  case value?_eq =>
    intro α _ kind
    exact value?_take_eq_ite α data c kind
  case find?_within =>
    intro kind payload h
    rw [find?_take] at h
    obtain ⟨s, hs, rfl⟩ := Option.map_eq_some_iff.mp h
    obtain ⟨hs, hc⟩ := Option.filter_eq_some_iff.mp hs
    exact ⟨s, hs, by simpa using hc, rfl⟩
  case child?_eq =>
    rintro a rfl kind
    exact find?_take_eq_ite a.payload c kind
  case childValue?_eq =>
    rintro α _ a rfl kind
    exact value?_take_eq_ite α a.payload c kind
  case attribute?_eq =>
    rintro p rfl kind
    rw [Packet.attribute?, Packet.region_cut]
    exact find?_take_eq_ite p.region c kind
  case packetValue?_eq =>
    rintro α _ p rfl kind
    rw [Packet.value?, Packet.region_cut]
    exact value?_take_eq_ite α p.region c kind

end Region

end WifiNetlink
