import HeaderCompression.Proofs.Header.Canonical

namespace HeaderCompression

def Direction.opposite : Direction → Direction
  | .up => .down
  | .down => .up

@[simp] theorem Direction.opposite_opposite (direction : Direction) :
    direction.opposite.opposite = direction := by
  cases direction <;> rfl

section Exchange

variable {α : Type} {front a b back xs ys : List α} {start count : Nat}

/-- Exchanges the `count` elements from `start` on with the `count` elements behind them. -/
def exchange (start count : Nat) (xs : List α) : List α :=
  xs.take start ++ (xs.drop (start + count)).take count ++ (xs.drop start).take count ++
    xs.drop (start + 2 * count)

theorem exchange_parts (hstart : front.length = start) (ha : a.length = count)
    (hb : b.length = count) :
    exchange start count (front ++ a ++ b ++ back) = front ++ b ++ a ++ back := by
  have hback : start + 2 * count = (front ++ a ++ b).length := by simp; omega
  rw [exchange, hback, List.drop_left]
  simp [← hstart, ← ha, ← List.drop_drop, hb.trans ha.symm]

theorem exists_parts (h : start + 2 * count ≤ xs.length) :
    ∃ front a b back : List α, xs = front ++ a ++ b ++ back ∧ front.length = start ∧
      a.length = count ∧ b.length = count := by
  refine ⟨xs.take start, (xs.drop start).take count, (xs.drop (start + count)).take count,
    xs.drop (start + 2 * count), ?_, ?_, ?_, ?_⟩
  · have hback : start + 2 * count = start + count + count := by omega
    simp only [hback, ← List.drop_drop, List.append_assoc, List.take_append_drop]
  all_goals
    simp
    omega

@[simp] theorem length_exchange (h : start + 2 * count ≤ xs.length) :
    (exchange start count xs).length = xs.length := by
  obtain ⟨front, a, b, back, rfl, hstart, ha, hb⟩ := exists_parts h
  rw [exchange_parts hstart ha hb]
  simp only [List.length_append]
  omega

theorem exchange_append_left (ys : List α) (h : start + 2 * count ≤ xs.length) :
    exchange start count (xs ++ ys) = exchange start count xs ++ ys := by
  obtain ⟨front, a, b, back, rfl, hstart, ha, hb⟩ := exists_parts h
  rw [exchange_parts hstart ha hb, List.append_assoc _ back, exchange_parts hstart ha hb,
    List.append_assoc _ back]

theorem exchange_append_right (xs : List α) (h : start + 2 * count ≤ ys.length) :
    exchange (xs.length + start) count (xs ++ ys) = xs ++ exchange start count ys := by
  obtain ⟨front, a, b, back, rfl, hstart, ha, hb⟩ := exists_parts h
  have hfront : (xs ++ front).length = xs.length + start := by simp [hstart]
  have hsplit (c d : List α) : xs ++ (front ++ c ++ d ++ back) = xs ++ front ++ c ++ d ++ back := by
    simp only [List.append_assoc]
  rw [exchange_parts hstart ha hb, hsplit, hsplit, exchange_parts hfront ha hb]

def exchangedIndex (start count i : Nat) : Nat :=
  if i < start then i
  else if i < start + count then i + count
  else if i < start + 2 * count then i - count
  else i

theorem getElem?_exchange (h : start + 2 * count ≤ xs.length) (i : Nat) :
    (exchange start count xs)[i]? = xs[exchangedIndex start count i]? := by
  obtain ⟨front, a, b, back, rfl, rfl, rfl, hb⟩ := exists_parts h
  rw [exchange_parts rfl rfl hb, exchangedIndex]
  simp only [List.append_assoc, List.getElem?_append]
  split_ifs <;> first | rfl | omega | (congr 1; omega)

theorem getD_exchange {i : Nat} (default : α) (h : start + 2 * count ≤ xs.length) (hi : i < start) :
    (exchange start count xs).getD i default = xs.getD i default := by
  rw [List.getD_eq_getElem?_getD, getElem?_exchange h, exchangedIndex, if_pos hi,
    ← List.getD_eq_getElem?_getD]

theorem bitsOfBytes_exchange {bytes : List UInt8} (h : start + 2 * count ≤ bytes.length) :
    bitsOfBytes (exchange start count bytes) =
      exchange (8 * start) (8 * count) (bitsOfBytes bytes) := by
  obtain ⟨front, a, b, back, rfl, hstart, ha, hb⟩ := exists_parts h
  rw [exchange_parts hstart ha hb]
  simp only [bitsOfBytes_append]
  rw [exchange_parts] <;> simp [hstart, ha, hb]

end Exchange

def Slot.exchange (start count : Nat) (slot : Slot) : Slot :=
  { slot with position := exchangedIndex start count slot.position }

/-- The slot does not cross a border of the parts. -/
def Slot.Beside (start count : Nat) (slot : Slot) : Prop :=
  slot.position + slot.width ≤ start ∨
    start ≤ slot.position ∧ slot.position + slot.width ≤ start + count ∨
    start + count ≤ slot.position ∧ slot.position + slot.width ≤ start + 2 * count ∨
    start + 2 * count ≤ slot.position

variable {direction : Direction} {layout : List Slot} {slot : Slot} {start count : Nat}
  {header : List UInt8} {columns : List Column} {layer : Layer}

namespace Layout

theorem cut_exchange {bits : List Bool} (h : start + 2 * count ≤ bits.length)
    (hslot : slot.Beside start count) :
    cut (HeaderCompression.exchange start count bits) (slot.exchange start count) =
      cut bits slot := by
  have hwidth : (slot.exchange start count).width = slot.width := rfl
  rw [cut, cut, hwidth]
  refine congrArg (Column.mk slot.field slot.width <| alignRight ·) ?_
  apply List.ext_getElem?
  intro i
  simp only [List.getElem?_take, List.getElem?_drop]
  split
  · rename_i hi
    rw [getElem?_exchange h]
    congr 1
    unfold Slot.Beside at hslot
    unfold Slot.exchange exchangedIndex
    dsimp only
    split_ifs <;> omega
  · rfl

theorem columns_exchange (hlen : start + 2 * count ≤ header.length)
    (hslots : ∀ slot ∈ layout, slot.Beside (8 * start) (8 * count)) :
    Layout.columns (layout.map (·.exchange (8 * start) (8 * count)))
      (exchange start count header) = Layout.columns layout header := by
  rw [Layout.columns, Layout.columns, List.map_map, bitsOfBytes_exchange hlen]
  apply List.map_congr_left
  intro slot hslot
  exact cut_exchange (by simp; omega) (hslots slot hslot)

theorem ipv6_opposite (direction : Direction) :
    ipv6 direction.opposite = (ipv6 direction).map (·.exchange (8 * 8) (8 * 16)) := by
  cases direction <;> rfl

theorem udp_opposite (direction : Direction) :
    udp direction.opposite = (udp direction).map (·.exchange (8 * 0) (8 * 2)) := by
  cases direction <;> rfl

theorem columns_ipv6_exchange (direction : Direction) (hlen : header.length = 40) :
    Layout.columns (ipv6 direction.opposite) (exchange 8 16 header) =
      Layout.columns (ipv6 direction) header := by
  rw [ipv6_opposite]
  apply columns_exchange (by omega)
  unfold Slot.Beside
  cases direction <;> decide

theorem columns_udp_exchange (direction : Direction) (hlen : header.length = 8) :
    Layout.columns (udp direction.opposite) (exchange 0 2 header) =
      Layout.columns (udp direction) header := by
  rw [udp_opposite]
  apply columns_exchange (by omega)
  unfold Slot.Beside
  cases direction <;> decide

end Layout

theorem length_exchange_ipv6 (hlen : header.length = 40) : (exchange 8 16 header).length = 40 :=
  (length_exchange (by omega)).trans hlen

theorem length_exchange_udp (hlen : header.length = 8) : (exchange 0 2 header).length = 8 :=
  (length_exchange (by omega)).trans hlen

theorem Ipv6Header.columns_exchange (direction : Direction) (hlen : header.length = 40) :
    Ipv6Header.columns direction.opposite (exchange 8 16 header) =
      Ipv6Header.columns direction header := by
  have hsame := length_exchange_ipv6 hlen
  unfold Ipv6Header.columns ipv6HeaderLength
  rw [List.take_of_length_le (by omega), List.take_of_length_le (by omega), hsame, hlen,
    getD_exchange 0 (by omega) (by decide), getD_exchange 0 (by omega) (by decide),
    Layout.columns_ipv6_exchange direction hlen]

theorem UdpHeader.columns_exchange (direction : Direction) (hlen : header.length = 8) :
    UdpHeader.columns direction.opposite (exchange 0 2 header) =
      UdpHeader.columns direction header := by
  rw [UdpHeader.columns_eq _ (length_exchange_udp hlen), UdpHeader.columns_eq _ hlen,
    Layout.columns_udp_exchange direction hlen]

namespace Layer

/-- A header with its source and its destination exchanged; a CoAP message has neither. -/
def exchangeEnds : Layer → List UInt8 → List UInt8
  | .network => exchange 8 16
  | .transport => exchange 0 2
  | .application => id

theorem columns_exchangeEnds {data : List UInt8} (direction : Direction)
    (hnetwork : layer = .network → data.length = 40)
    (htransport : layer = .transport → data.length = 8) :
    layer.columns direction.opposite (layer.exchangeEnds data) = layer.columns direction data := by
  cases layer with
  | network =>
    have hlen := hnetwork rfl
    unfold columns exchangeEnds
    dsimp only
    rw [Ipv6Header.columns_exchange direction hlen, length_exchange_ipv6 hlen, hlen]
  | transport =>
    have hlen := htransport rfl
    unfold columns exchangeEnds
    dsimp only
    rw [UdpHeader.columns_exchange direction hlen, length_exchange_udp hlen, hlen]
  | application => rfl

theorem header_opposite (hlayer : layer ≠ .application) (hcanonical : layer.Canonical columns)
    (h : layer.header direction columns = .ok header) :
    layer.header direction.opposite columns = .ok (layer.exchangeEnds header) := by
  cases layer with
  | network =>
    obtain ⟨built, hlen, hbuilt, hcolumns⟩ := Ipv6Header.exists_header hcanonical direction
    cases h.symm.trans hbuilt
    rw [ipv6HeaderLength] at hlen
    have hsame := length_exchange_ipv6 hlen
    have htiles : Layout.Tiles (Layout.ipv6 direction.opposite)
        (8 * (exchange 8 16 header).length) := by
      rw [hsame]
      exact Layout.ipv6_tiles direction.opposite
    rw [← hcolumns, ← Layout.columns_ipv6_exchange direction hlen]
    exact (Layout.ofColumns_ipv6 ..).trans (Layout.header_columns htiles hsame)
  | transport =>
    obtain ⟨built, hlen, hbuilt, hcolumns⟩ := UdpHeader.exists_header hcanonical direction
    cases h.symm.trans hbuilt
    rw [udpHeaderLength] at hlen
    have hsame := length_exchange_udp hlen
    have htiles : Layout.Tiles (Layout.udp direction.opposite)
        (8 * (exchange 0 2 header).length) := by
      rw [hsame]
      exact Layout.udp_tiles direction.opposite
    rw [← hcolumns, ← Layout.columns_udp_exchange direction hlen]
    exact (Layout.ofColumns_udp ..).trans (Layout.header_columns htiles hsame)
  | application => exact (hlayer rfl).elim

end Layer

end HeaderCompression
