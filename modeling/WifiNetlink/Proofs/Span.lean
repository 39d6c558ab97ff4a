import Mathlib.Data.List.Chain
import WifiNetlink.Proofs.Row

/-!
# Where attributes stand in a region

A walk over a region is described by the places of the attributes that it meets. Such a place is
found from the bytes alone: at an offset an attribute stands if its header and the length that it
declares fit what is left, and the next one is looked for behind its padding. Main statement: for
every byte string a walk gives the attributes at these places, one for each call and then none, and
tells rightly whether it ended early.
-/

namespace WifiNetlink

/-- The place of an attribute in a region. -/
structure Span where
  /-- The offset of its header. -/
  start : Nat
  /-- The bytes of header and payload. -/
  length : Nat
deriving Repr, DecidableEq

namespace Span

/-- The offset behind the payload. -/
def stop (s : Span) : Nat := s.start + s.length

/-- The offset behind the padding. -/
def next (s : Span) : Nat := s.start + align4 s.length

/-- The payload of the attribute at a place. -/
def payload (data : Bytes) (s : Span) : Bytes := (data.drop (s.start + 4)).take (s.length - 4)

/-- What a walk gives of the attribute at a place. -/
def item (data : Bytes) (s : Span) : Item :=
  ⟨kindOf (UInt16.ofNat (data.natAt (s.start + 2) 2)), s.payload data⟩

theorem stop_le_next (s : Span) : s.stop ≤ s.next :=
  Nat.add_le_add_left (le_align4 s.length) s.start

end Span

namespace Region

/-- Whether an attribute stands at an offset: four bytes are left for its header, and the length
that it declares covers the header and is no more than what is left. -/
def Stands (data : Bytes) (start : Nat) : Prop :=
  start + 4 ≤ data.length ∧ 4 ≤ data.natAt start 2 ∧ start + data.natAt start 2 ≤ data.length

instance (data : Bytes) (start : Nat) : Decidable (Stands data start) :=
  inferInstanceAs (Decidable (_ ∧ _))

/-- The place of the attribute that stands at an offset. -/
def spanAt (data : Bytes) (start : Nat) : Span := ⟨start, data.natAt start 2⟩

theorem start_lt_next_spanAt {data : Bytes} {start : Nat} (h : Stands data start) :
    start + 4 ≤ (spanAt data start).next := by
  have := le_align4 (data.natAt start 2)
  have := h.2.1
  simp only [Span.next, spanAt]
  omega

/-- The places of the attributes from an offset on. -/
def spansFrom (data : Bytes) (start : Nat) : List Span :=
  if _h : Stands data start then spanAt data start :: spansFrom data (spanAt data start).next
  else []
termination_by data.length - start
decreasing_by
  have := start_lt_next_spanAt _h
  have := _h.1
  omega

/-- The places of the attributes of a region. -/
def spans (data : Bytes) : List Span := spansFrom data 0

/-- The offset at which a walk from an offset ends that meets attributes at some places. -/
def reach (start : Nat) (spans : List Span) : Nat := (spans.getLast?.map Span.next).getD start

theorem spansFrom_of_stands {data : Bytes} {start : Nat} (h : Stands data start) :
    spansFrom data start = spanAt data start :: spansFrom data (spanAt data start).next := by
  rw [spansFrom, dif_pos h]

theorem spansFrom_of_not_stands {data : Bytes} {start : Nat} (h : ¬ Stands data start) :
    spansFrom data start = [] := by
  rw [spansFrom, dif_neg h]

theorem reach_cons (start : Nat) (s : Span) (spans : List Span) :
    reach start (s :: spans) = reach s.next spans := by
  cases spans with
  | nil => rfl
  | cons t spans => rw [reach, reach, List.getLast?_cons_cons, List.getLast?_cons]; rfl

variable {data : Bytes} {start : Nat} {s : Span}

/-- Where an attribute is found one stands, and its length is the one it declares. -/
theorem stands_of_mem_spansFrom (hs : s ∈ spansFrom data start) :
    Stands data s.start ∧ s.length = data.natAt s.start 2 := by
  fun_induction spansFrom data start with
  | case1 start h ih =>
    rcases List.mem_cons.mp hs with rfl | hs
    · exact ⟨h, rfl⟩
    · exact ih hs
  | case2 start h => exact absurd hs (List.not_mem_nil)

/-- An attribute has a header and ends within the region. -/
theorem fits_of_mem_spansFrom (hs : s ∈ spansFrom data start) :
    4 ≤ s.length ∧ s.stop ≤ data.length := by
  obtain ⟨⟨-, hleast, hmost⟩, hlength⟩ := stands_of_mem_spansFrom hs
  rw [Span.stop, hlength]
  exact ⟨hleast, hmost⟩

/-- Attributes are looked for from the offset on. -/
theorem le_start_of_mem_spansFrom (hs : s ∈ spansFrom data start) : start ≤ s.start := by
  fun_induction spansFrom data start with
  | case1 start h ih =>
    rcases List.mem_cons.mp hs with rfl | hs
    · exact Nat.le_refl _
    · have := start_lt_next_spanAt h
      have := ih hs
      omega
  | case2 start h => exact absurd hs (List.not_mem_nil)

/-- Attributes keep to the boundaries on which the first one starts. -/
theorem start_mod_of_mem_spansFrom (hs : s ∈ spansFrom data start) :
    s.start % 4 = start % 4 := by
  fun_induction spansFrom data start with
  | case1 start h ih =>
    rcases List.mem_cons.mp hs with rfl | hs
    · rfl
    · have := align4_mod (data.natAt start 2)
      rw [ih hs]
      change (start + align4 (data.natAt start 2)) % 4 = start % 4
      omega
  | case2 start h => exact absurd hs (List.not_mem_nil)

theorem head_spansFrom (hs : s ∈ (spansFrom data start).head?) : s.start = start := by
  by_cases h : Stands data start
  · rw [spansFrom_of_stands h] at hs
    exact congrArg Span.start (Option.some.inj hs).symm
  · rw [spansFrom_of_not_stands h] at hs
    contradiction

/-- Each attribute starts behind the padding of the one before. -/
theorem isChain_spansFrom (data : Bytes) (start : Nat) :
    (spansFrom data start).IsChain fun s t ↦ t.start = s.next := by
  fun_induction spansFrom data start with
  | case1 start h ih => exact List.isChain_cons.mpr ⟨fun t ht ↦ head_spansFrom ht, ih⟩
  | case2 start h => exact .nil

/-- No two attributes share a byte. -/
theorem pairwise_spansFrom (data : Bytes) (start : Nat) :
    (spansFrom data start).Pairwise fun s t ↦ s.stop ≤ t.start := by
  fun_induction spansFrom data start with
  | case1 start h ih =>
    refine List.pairwise_cons.mpr ⟨fun t ht ↦ ?_, ih⟩
    exact Nat.le_trans (Span.stop_le_next _) (le_start_of_mem_spansFrom ht)
  | case2 start h => exact .nil

/-- Each attribute takes at least four bytes. -/
theorem length_spansFrom_le (data : Bytes) (start : Nat) :
    4 * (spansFrom data start).length ≤ data.length - start := by
  fun_induction spansFrom data start with
  | case1 start h ih =>
    have := start_lt_next_spanAt h
    have := h.1
    rw [List.length_cons]
    omega
  | case2 start h => exact Nat.zero_le _

/-- No attribute stands where the walk ends. -/
theorem not_stands_reach (data : Bytes) (start : Nat) :
    ¬ Stands data (reach start (spansFrom data start)) := by
  fun_induction spansFrom data start with
  | case1 start h ih => rwa [reach_cons]
  | case2 start h => exact h

end Region

namespace Cursor

/-- A walk after some calls for the next attribute. -/
def after : (count : Nat) → Cursor → Cursor
  | 0, c => c
  | count + 1, c => after count c.next.2

/-- What a call gives that comes after some others. -/
def call (count : Nat) (c : Cursor) : Option Item := (c.after count).next.1

/-- A walk that has ended stays as it is. -/
theorem after_of_next {c c' : Cursor} (h : c.next = (none, c')) (count : Nat) :
    c.after (count + 1) = c' := by
  have hstays : c'.next = (none, c') := next_of_next_eq_none h
  rw [after, h]
  induction count with
  | zero => rfl
  | succ count ih => rwa [after, hstays]

theorem call_of_next {c c' : Cursor} (h : c.next = (none, c')) (count : Nat) :
    c.call count = none := by
  cases count with
  | zero => exact congrArg Prod.fst h
  | succ count => rw [call, after_of_next h, next_of_next_eq_none h]

/-- All attributes of a walk are what its calls give. -/
theorem getElem?_drain (c : Cursor) (count : Nat) : c.drain.1[count]? = c.call count := by
  induction count generalizing c with
  | zero =>
    rcases hn : c.next with ⟨_ | item, c'⟩
    · rw [drain_of_next_none hn, call_of_next hn]
      rfl
    · rw [drain_of_next_some hn, call, after, hn]
      rfl
  | succ count ih =>
    rcases hn : c.next with ⟨_ | item, c'⟩
    · rw [drain_of_next_none hn, call_of_next hn]
      rfl
    · rw [drain_of_next_some hn, call, after, hn, List.getElem?_cons_succ, ih]
      rfl

end Cursor

namespace Region

variable {data : Bytes} {start : Nat}

/-- The walk over what is left of a region from an offset on. -/
def walkFrom (data : Bytes) (start : Nat) : Cursor := ⟨data.drop start, false⟩

theorem natAt_drop (data : Bytes) (start offset count : Nat) :
    Bytes.natAt (data.drop start) offset count = data.natAt (start + offset) count := by
  rw [Bytes.natAt, Bytes.natAt, List.drop_drop]

/-- Where an attribute stands the next call gives it and goes on behind its padding. -/
theorem next_of_stands (h : Stands data start) :
    (walkFrom data start).next =
      (some ((spanAt data start).item data), walkFrom data (spanAt data start).next) := by
  obtain ⟨hheader, hleast, hmost⟩ := h
  have hdeclared : (walkFrom data start).declared = data.natAt start 2 := natAt_drop data start 0 2
  have hlength : (walkFrom data start).data.length = data.length - start := List.length_drop
  have hfront : (walkFrom data start).front = (spanAt data start).item data := by
    rw [Cursor.front, hdeclared, walkFrom, natAt_drop, List.drop_take, List.drop_drop]
    rfl
  have hrest : (walkFrom data start).data.drop (align4 (data.natAt start 2)) =
      data.drop (spanAt data start).next := List.drop_drop
  rw [Cursor.next, hlength, hdeclared, if_neg (by omega), if_neg (by omega), hfront, hrest]
  rfl

/-- Where none stands the walk ends, early if there was room for a header. -/
theorem next_of_not_stands (h : ¬ Stands data start) :
    (walkFrom data start).next =
      (none, if start + 4 ≤ data.length then ⟨[], true⟩ else walkFrom data start) := by
  have hdeclared : (walkFrom data start).declared = data.natAt start 2 := natAt_drop data start 0 2
  have hlength : (walkFrom data start).data.length = data.length - start := List.length_drop
  rw [Cursor.next, hlength, hdeclared]
  by_cases hheader : start + 4 ≤ data.length
  · have hbad : data.natAt start 2 < 4 ∨ data.length - start < data.natAt start 2 := by
      have := not_and.mp (not_and.mp h hheader)
      omega
    rw [if_neg (by omega), if_pos hbad, if_pos hheader]
  · rw [if_pos (by omega), if_neg hheader]

theorem call_walkFrom (data : Bytes) (start count : Nat) :
    (walkFrom data start).call count = (spansFrom data start)[count]?.map (Span.item data) := by
  induction count generalizing start with
  | zero =>
    by_cases h : Stands data start
    · rw [spansFrom_of_stands h, Cursor.call, Cursor.after, next_of_stands h]
      rfl
    · rw [spansFrom_of_not_stands h, Cursor.call_of_next (next_of_not_stands h)]
      rfl
  | succ count ih =>
    by_cases h : Stands data start
    · rw [spansFrom_of_stands h, List.getElem?_cons_succ, ← ih, Cursor.call, Cursor.after,
        next_of_stands h]
      rfl
    · rw [spansFrom_of_not_stands h, Cursor.call_of_next (next_of_not_stands h)]
      rfl

/-- A walk ended early if it ended and there was room for a header where it did. -/
theorem truncated_walkFrom (data : Bytes) (start count : Nat) :
    ((walkFrom data start).after count).truncated =
      decide ((spansFrom data start).length < count ∧
        reach start (spansFrom data start) + 4 ≤ data.length) := by
  induction count generalizing start with
  | zero => rfl
  | succ count ih =>
    by_cases h : Stands data start
    · rw [Cursor.after, next_of_stands h, spansFrom_of_stands h, reach_cons, List.length_cons]
      simpa only [Nat.add_lt_add_iff_right] using ih (spanAt data start).next
    · rw [Cursor.after_of_next (next_of_not_stands h), spansFrom_of_not_stands h]
      by_cases hheader : start + 4 ≤ data.length
      · simp [hheader, reach]
      · simp [hheader, reach, walkFrom]

/-- The attributes of a region are those at their places. -/
theorem items_eq_map_spans (data : Bytes) : items data = (spans data).map (Span.item data) := by
  apply List.ext_getElem?
  intro count
  rw [items, Cursor.getElem?_drain, List.getElem?_map]
  exact call_walkFrom data 0 count

/-- What a walk over a region does if it meets attributes at some places. -/
structure IsWalked (data : Bytes) (spans : List Span) : Prop where
  /-- Call after call gives the attributes at the places, in order, and then none. -/
  call_eq (count : Nat) :
    (Cursor.ofBytes data).call count = spans[count]?.map (Span.item data)
  items_eq : items data = spans.map (Span.item data)
  /-- After a call that gave none no call gives any. -/
  silent {count : Nat} (h : (Cursor.ofBytes data).call count = none) (more : Nat) :
    (Cursor.ofBytes data).call (count + more) = none
  stands : ∀ s ∈ spans, Stands data s.start
  declared : ∀ s ∈ spans, s.length = data.natAt s.start 2
  inside : ∀ s ∈ spans, s.stop ≤ data.length
  disjoint : spans.Pairwise fun s t ↦ s.stop ≤ t.start
  first : ∀ s ∈ spans.head?, s.start = 0
  successive : spans.IsChain fun s t ↦ t.start = s.start + align4 s.length
  aligned : ∀ s ∈ spans, s.start % 4 = 0
  /-- The walk goes on as long as an attribute stands where it is. -/
  ends : ¬ Stands data (reach 0 spans)
  /-- The walk ends early exactly if there is room for a header where it ends. -/
  truncated_eq (count : Nat) :
    ((Cursor.ofBytes data).after count).truncated =
      decide (spans.length < count ∧ reach 0 spans + 4 ≤ data.length)
  length_le : spans.length ≤ data.length / 4

/-- Every byte string is walked from place to place as its lengths say, for as long as they can
be trusted. -/
theorem isWalked_spans (data : Bytes) : IsWalked data (spans data) := by
  have hcall (count : Nat) :
      (Cursor.ofBytes data).call count = (spans data)[count]?.map (Span.item data) :=
    call_walkFrom data 0 count
  constructor
  case call_eq => exact hcall
  case items_eq => exact items_eq_map_spans data
  case silent =>
    intro count h more
    rw [hcall, Option.map_eq_none_iff, List.getElem?_eq_none_iff] at h ⊢
    omega
  case stands => exact fun s hs ↦ (stands_of_mem_spansFrom hs).1
  case declared => exact fun s hs ↦ (stands_of_mem_spansFrom hs).2
  case inside => exact fun s hs ↦ (fits_of_mem_spansFrom hs).2
  case disjoint => exact pairwise_spansFrom data 0
  case first => exact fun s hs ↦ head_spansFrom hs
  case successive => exact isChain_spansFrom data 0
  case aligned => exact fun s hs ↦ start_mod_of_mem_spansFrom hs
  case ends => exact not_stands_reach data 0
  case truncated_eq => exact truncated_walkFrom data 0
  case length_le =>
    have h := length_spansFrom_le data 0
    change 4 * (spans data).length ≤ _ at h
    omega

/-- An attribute of five bytes and its padding, one without a payload, and one that declares more
than there is. -/
example : spans [5, 0, 1, 0, 9, 0, 0, 0, 4, 0, 2, 128, 7, 0, 3, 0, 1, 2] = [⟨0, 5⟩, ⟨8, 4⟩] ∧
    isTruncated [5, 0, 1, 0, 9, 0, 0, 0, 4, 0, 2, 128, 7, 0, 3, 0, 1, 2] = true := by
  cbv

end Region

end WifiNetlink
