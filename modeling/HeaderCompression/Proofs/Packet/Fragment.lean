import HeaderCompression.Proofs.Packet.RoundTrip

namespace HeaderCompression

namespace LayeredId

theorem markByte_toByte (fragmented : Bool) (id : LayeredId) :
    markByte fragmented id.toByte = { id with fragmented }.toByte := by
  have hbit := Bool.toNat_lt id.fragmented
  simp only [markByte, toByte, ← UInt8.toNat_inj, UInt8.toNat_ofNat']
  omega

theorem toByte_eq_iff {fragmented : Bool} {id : LayeredId} :
    { id with fragmented }.toByte = id.toByte ↔ fragmented = id.fragmented := by
  cases fragmented <;> cases hbit : id.fragmented <;>
    simp only [toByte, hbit, ← UInt8.toNat_inj, UInt8.toNat_ofNat', Bool.toNat_false,
      Bool.toNat_true, reduceCtorEq, iff_false] <;>
    omega

end LayeredId

namespace CompressedPacket

def withFragmentBits (packet : CompressedPacket) (flags : List Bool) :
    Except Error CompressedPacket :=
  flags.foldlM (fun packet fragmented => packet.withFragmentBit fragmented) packet

/-- The packet has a layered id in front of its body, in a byte that holds the whole id. -/
structure Bears (packet : CompressedPacket) (id : LayeredId) (body : List UInt8) : Prop where
  layered?_eq : packet.layered? = some id
  data_eq : packet.data = id.toByte :: body
  fits : LayeredId.ofByte id.toByte = id

variable {packet : CompressedPacket} {id : LayeredId} {body : List UInt8}

theorem Bears.withFragmentBit (h : packet.Bears id body) (fragmented : Bool) :
    ∃ marked, packet.withFragmentBit fragmented = .ok marked ∧
      marked.Bears { id with fragmented } body ∧ marked.code = packet.code := by
  have hbyte := LayeredId.markByte_toByte fragmented id
  have hmark : packet.withFragmentBit fragmented = .ok { packet with
      layered? := some { id with fragmented }
      data := LayeredId.markByte fragmented id.toByte :: body } := by
    rw [CompressedPacket.withFragmentBit]
    rw [h.layered?_eq, h.data_eq]
  refine ⟨_, hmark, ⟨rfl, congrArg (· :: body) hbyte, ?_⟩, rfl⟩
  rw [← hbyte, LayeredId.ofByte_markByte, h.fits]

theorem Bears.withFragmentBits (h : packet.Bears id body) (flags : List Bool) :
    ∃ marked, packet.withFragmentBits flags = .ok marked ∧
      marked.Bears { id with fragmented := flags.getLastD id.fragmented } body ∧
      marked.code = packet.code := by
  induction flags generalizing packet id with
  | nil => exact ⟨packet, rfl, h, rfl⟩
  | cons fragmented flags ih =>
    obtain ⟨next, hnext, hbears, hcode⟩ := h.withFragmentBit fragmented
    obtain ⟨marked, hmarked, hlast, hcode'⟩ := ih hbears
    rw [List.getLastD_cons, CompressedPacket.withFragmentBits, List.foldlM_cons]
    exact ⟨marked, bind_eq_ok_iff.2 ⟨next, hnext, hmarked⟩, hlast, hcode'.trans hcode⟩

theorem Bears.decompress_eq {device : Device} (h : packet.Bears id body)
    (hmode : device.mode = .layered) (receiver : Endpoint) :
    decompress device receiver packet.data = (⟨·, ⟨id.toByte.toNat, 8⟩, some id⟩) <$>
      restorePacket device receiver id.selection body := by
  simp only [decompress, hmode, h.data_eq, h.fits]
  rfl

end CompressedPacket

variable {device : Device} {endpoint : Endpoint} {packet : List UInt8}

namespace Device

def layeredIdOf (device : Device) (packet : List UInt8) (endpoint : Endpoint) : LayeredId :=
  let selection := device.selectionOf packet endpoint
  ⟨false, UInt8.ofNat (selection.network?.getD 0), UInt8.ofNat (selection.transport?.getD 0),
    UInt8.ofNat (selection.application?.getD 0)⟩

theorem layer_layeredIdOf (device : Device) (packet : List UInt8) (endpoint : Endpoint)
    (layer : Layer) : (device.layeredIdOf packet endpoint).layer layer =
      UInt8.ofNat (((device.selectionOf packet endpoint).layer? layer).getD 0) := by
  cases layer <;> rfl

section Layered

variable (haccepted : device.Accepted) (hmode : device.mode = .layered)

include haccepted hmode in
theorem toNat_layeredIdOf (packet : List UInt8) (endpoint : Endpoint) (layer : Layer) :
    ((device.layeredIdOf packet endpoint).layer layer).toNat =
        ((device.selectionOf packet endpoint).layer? layer).getD 0 ∧
      ((device.layeredIdOf packet endpoint).layer layer).toNat ≤ layer.maxLayeredId := by
  obtain ⟨rule?, hsent⟩ := SentLayer.exists_sentAs device layer endpoint (layer.dataOf packet)
  obtain ⟨hle, hid⟩ := hsent.layeredId haccepted hmode
  rw [layer_layeredIdOf, layer?_selectionOf]
  refine ⟨?_, hle⟩
  have hget := congrArg (·.getD 0) hid
  split at hget
  · rename_i hzero
    exact (congrArg UInt8.toNat hzero).trans hget
  · exact hget

include haccepted hmode in
theorem compressed_bears {compressed : CompressedPacket}
    (h : (compress device packet endpoint).1 = .ok compressed) :
    compressed.Bears (device.layeredIdOf packet endpoint) compressed.data.tail ∧
      compressed.code = ⟨(device.layeredIdOf packet endpoint).toByte.toNat, 8⟩ := by
  rw [compress_fst (compress_eq_ok h).1] at h
  have hcompressed := Endpoint.eq_of_accept h
  rw [assemble] at hcompressed
  rw [hmode] at hcompressed
  subst hcompressed
  have hle (layer : Layer) := (toNat_layeredIdOf haccepted hmode packet endpoint layer).2
  exact ⟨⟨rfl, rfl, LayeredId.ofByte_toByte (Nat.lt_succ_of_le (hle .network))
    (Nat.lt_succ_of_le (hle .transport)) (Nat.lt_succ_of_le (hle .application))⟩, rfl⟩

end Layered

/-- However often the fragment bit of a compressed packet is set and cleared, its layered id names
the rules that the layers were sent under and has the last flag, its first byte is this id, its other
bytes stay, and the receiver reports the id and its byte. The packet's own code stays too, so that it
is the first byte exactly if the last flag is clear. -/
theorem fragmentBits_coherent (device : Device) (haccepted : device.Accepted)
    (hmode : device.mode = .layered) (packet : List UInt8) (sender : Endpoint)
    (compressed : CompressedPacket) (hcompress : (compress device packet sender).1 = .ok compressed)
    (flags : List Bool) :
    ∃ marked id, compressed.withFragmentBits flags = .ok marked ∧ marked.layered? = some id ∧
      id.fragmented = flags.getLastD false ∧
      (∀ layer, (id.layer layer).toNat =
        ((device.selectionOf packet sender).layer? layer).getD 0) ∧
      marked.data = id.toByte :: compressed.data.tail ∧ marked.code = compressed.code ∧
      (marked.code = ⟨id.toByte.toNat, 8⟩ ↔ flags.getLastD false = false) ∧
      ∀ receiver restored, decompress device receiver marked.data = .ok restored →
        restored.layered? = some id ∧ restored.code = ⟨id.toByte.toNat, 8⟩ := by
  obtain ⟨hbears, hcode⟩ := compressed_bears haccepted hmode hcompress
  obtain ⟨marked, hmarked, hlast, hcode'⟩ := hbears.withFragmentBits flags
  refine ⟨marked, _, hmarked, hlast.layered?_eq, rfl, fun layer => ?_, hlast.data_eq, hcode', ?_,
    fun receiver restored hrestored => ?_⟩
  · rw [← (toNat_layeredIdOf haccepted hmode packet sender layer).1]
    cases layer <;> rfl
  · rw [hcode', hcode, RuleCode.mk.injEq, and_iff_left rfl, UInt8.toNat_inj, eq_comm,
      LayeredId.toByte_eq_iff]
    rfl
  · rw [hlast.decompress_eq hmode] at hrestored
    obtain ⟨data, -, rfl⟩ := map_eq_ok_iff.1 hrestored
    exact ⟨rfl, rfl⟩

theorem sensor_fragmentBits_coherent :
    (compress sensor sensorPacket (.ofDirection .up)).1 = .ok sensorCompressed ∧
      ∃ marked, sensorCompressed.withFragmentBits [true, false, true] = .ok marked ∧
        marked.layered? = some ⟨true, 0, 1, 1⟩ ∧ marked.data = 0x94 :: sensorCompressed.data.tail ∧
        marked.code = ⟨0x14, 8⟩ := by
  obtain ⟨marked, id, hmarked, hid, hfragmented, hlayer, hdata, hcode, -⟩ :=
    fragmentBits_coherent sensor sensor_accepted rfl sensorPacket (.ofDirection .up)
      sensorCompressed compress_sensorPacket [true, false, true]
  obtain rfl : id = ⟨true, 0, 1, 1⟩ := by
    have hnetwork : id.network.toNat = 0 := (hlayer .network).trans (by decide +kernel)
    have htransport : id.transport.toNat = 1 := (hlayer .transport).trans (by decide +kernel)
    have happlication : id.application.toNat = 1 := (hlayer .application).trans (by decide +kernel)
    rw [LayeredId.mk.injEq, ← UInt8.toNat_inj, ← UInt8.toNat_inj, ← UInt8.toNat_inj]
    exact ⟨hfragmented, hnetwork, htransport, happlication⟩
  exact ⟨compress_sensorPacket, marked, hmarked, hid, hdata, hcode⟩

/-- The code of a packet whose fragment bit is set is not its first byte, which the receiver
reports. -/
theorem code_of_marked_not_kept :
    ¬ ∀ (device : Device) (packet : List UInt8) (sender : Endpoint)
        (compressed marked : CompressedPacket) (flags : List Bool),
      device.Accepted → device.mode = .layered →
      (compress device packet sender).1 = .ok compressed →
      compressed.withFragmentBits flags = .ok marked →
      (∀ byte ∈ marked.data.head?, byte.toNat = marked.code.id) ∧
        ∀ receiver restored, decompress device receiver marked.data = .ok restored →
          restored.code = marked.code := by
  intro h
  have hmarked : sensorCompressed.withFragmentBits [true] = .ok { sensorCompressed with
      data := 0x94 :: sensorCompressed.data.tail
      layered? := some ⟨true, 0, 1, 1⟩ } := by decide +kernel
  have hcode := (h sensor sensorPacket (.ofDirection .up) sensorCompressed _ [true] sensor_accepted
    rfl compress_sensorPacket hmarked).1 0x94 rfl
  revert hcode
  decide

end Device

end HeaderCompression
