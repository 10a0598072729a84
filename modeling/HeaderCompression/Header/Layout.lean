import HeaderCompression.Column

namespace HeaderCompression

structure Slot where
  position : Nat
  field : HeaderField
  deriving DecidableEq, Repr

def Slot.width (slot : Slot) : Nat :=
  slot.field.width?.getD 0

namespace Layout

/-- The fields of a header, the device's side first whatever the direction. -/
def ipv6 (direction : Direction) : List Slot :=
  let (device, app) := match direction with
    | .up => (64, 192)
    | .down => (192, 64)
  [⟨0, .ipv6Version⟩, ⟨4, .ipv6TrafficClass⟩, ⟨12, .ipv6FlowLabel⟩, ⟨32, .ipv6PayloadLength⟩,
    ⟨48, .ipv6NextHeader⟩, ⟨56, .ipv6HopLimit⟩, ⟨device, .ipv6DevicePrefix⟩,
    ⟨device + 64, .ipv6DeviceIid⟩, ⟨app, .ipv6AppPrefix⟩, ⟨app + 64, .ipv6AppIid⟩]

def udp (direction : Direction) : List Slot :=
  let (device, app) := match direction with
    | .up => (0, 16)
    | .down => (16, 0)
  [⟨device, .udpDevicePort⟩, ⟨app, .udpAppPort⟩, ⟨32, .udpLength⟩, ⟨48, .udpChecksum⟩]

def cut (header : List Bool) (slot : Slot) : Column :=
  ⟨slot.field, slot.width, alignRight ((header.drop slot.position).take slot.width)⟩

def columns (layout : List Slot) (header : List UInt8) : List Column :=
  layout.map (cut (bitsOfBytes header))

def place (columns : List Column) (header : List UInt8) (slot : Slot) :
    Except Error (List UInt8) :=
  match Column.find? columns slot.field with
  | none => .error (.decompression (.missingField slot.field))
  | some column => column.writeInto header slot.position

end Layout

end HeaderCompression
