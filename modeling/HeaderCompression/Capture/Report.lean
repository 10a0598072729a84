import HeaderCompression.Capture.LinkLayer
import HeaderCompression.Packet.Compressed
import HeaderCompression.Packet.Restored
import HeaderCompression.Text.Decimal

namespace HeaderCompression.Capture

structure Settings where
  device : Device
  /-- The direction of packets that do not carry the device's address. -/
  direction : Direction
  link : LinkLayer
  verify : Bool

inductive Verification where
  | passed
  | differs (restored : List UInt8)
  | failed (error : Error)
  deriving DecidableEq, Repr

inductive Outcome where
  /-- The frame is too short for its link layer. -/
  | noPacket
  | skipped (error : Error)
  | compressed (direction : Direction) (packet : List UInt8) (result : CompressedPacket)
    (verification? : Option Verification)
  deriving DecidableEq, Repr

/-- The direction that a packet's addresses show: the source is at byte 8, the destination at 24.
-/
def directionOf (packet : List UInt8) (address? : Option Ipv6Address) (fallback : Direction) :
    Direction :=
  match address? with
  | none => fallback
  | some address =>
    if packet.length < ipv6HeaderLength then fallback
    else if (packet.drop 8).take 16 = address.bytes then .up
    else if (packet.drop 24).take 16 = address.bytes then .down
    else fallback

def verify (device : Device) (endpoint : Endpoint) (packet : List UInt8)
    (result : CompressedPacket) : Verification :=
  match decompress device endpoint result.data with
  | .ok restored => if restored.data = packet then .passed else .differs restored.data
  | .error error => .failed error

def outcome (settings : Settings) (frame : List UInt8) : Outcome :=
  match settings.link.packet frame with
  | .error _ => .noPacket
  | .ok packet =>
    let device := settings.device
    let direction := directionOf packet device.address? settings.direction
    match compress device packet (.ofDevice device direction) with
    | (.error error, _) => .skipped error
    | (.ok result, endpoint) =>
      .compressed direction packet result
        (if settings.verify then some (verify device endpoint packet result) else none)

structure Summary where
  packets : Nat
  compressed : Nat
  skipped : Nat
  verified : Nat
  failures : Nat
  sizes : HeaderSizes
  deriving DecidableEq, Repr

namespace Summary

def empty : Summary := ⟨0, 0, 0, 0, 0, ⟨0, 0⟩⟩

def countVerification (summary : Summary) : Option Verification → Summary
  | none => summary
  | some .passed => { summary with verified := summary.verified + 1 }
  | some _ => { summary with failures := summary.failures + 1 }

def count (summary : Summary) (outcome : Outcome) : Summary :=
  let summary := { summary with packets := summary.packets + 1 }
  match outcome with
  | .noPacket | .skipped _ => { summary with skipped := summary.skipped + 1 }
  | .compressed _ _ result verification? =>
    { summary with
      compressed := summary.compressed + 1
      sizes := ⟨summary.sizes.originalBits + result.sizes.originalBits,
        summary.sizes.compressedBits + result.sizes.compressedBits⟩ }.countVerification
      verification?

def ofOutcomes (outcomes : List Outcome) : Summary :=
  outcomes.foldl count empty

end Summary

/-- The frames that are looked at: the first `max`, or all if `max` is zero. -/
def limit (max : Nat) (frames : List (List UInt8)) : List (List UInt8) :=
  if max = 0 then frames else frames.take max

def outcomes (settings : Settings) (max : Nat) (frames : List (List UInt8)) : List Outcome :=
  (limit max frames).map (outcome settings)

def summarize (settings : Settings) (max : Nat) (frames : List (List UInt8)) : Summary :=
  .ofOutcomes (outcomes settings max frames)

def ruler : String := "".pushn '=' 80

def hexByte (byte : UInt8) : String :=
  "0x" ++ Text.hexOfBytes [byte]

def differenceLines (packet restored : List UInt8) : List String :=
  ((packet.zip restored).zipIdx.filterMap fun ((a, b), i) =>
    if a = b then none
    else some (s!"    Diff at byte {i}: original=" ++ hexByte a ++ ", decompressed=" ++ hexByte b))
  ++ (if packet.length = restored.length then []
    else [s!"    Length mismatch: original={packet.length}, decompressed={restored.length}"])

def verificationLines (packet : List UInt8) : Verification → List String
  | .passed => ["  ✓ Verification: PASSED"]
  | .differs restored => "  ✗ Verification: FAILED" :: differenceLines packet restored
  | .failed error => ["  ✗ Verification ERROR: " ++ error.message]

def sizeText (packet result : List UInt8) : String :=
  s!"{packet.length} bytes -> {result.length} bytes"

def savingText (packet : List UInt8) (result : CompressedPacket) : String :=
  sizeText packet result.data ++ " (Rule: " ++ result.code.text ++
    s!" - Saved: {result.sizes.savedBits} bits)"

def outcomeLines (number : Nat) : Outcome → List String
  | .noPacket => []
  | .skipped error => [s!"Packet {number}: SKIPPED (" ++ error.message ++ ")"]
  | .compressed direction packet result verification? =>
    (s!"Packet {number}: " ++ direction.name ++ " " ++ savingText packet result) ::
      (verification?.map (verificationLines packet)).getD []

def bitsText (bits : Nat) : String :=
  s!"{bits} bits ({bytesFor bits} bytes)"

def savedPercent (sizes : HeaderSizes) : Float :=
  100 * Float.ofInt sizes.savedBits / Float.ofNat sizes.originalBits

def compressionRatio (sizes : HeaderSizes) : Float :=
  Float.ofNat sizes.originalBits / Float.ofNat (max sizes.compressedBits 1)

def Summary.lines (summary : Summary) : List String :=
  let sizes := summary.sizes
  ["", ruler, "SUMMARY", ruler,
    s!"Total packets processed:    {summary.packets}",
    s!"Compressed:                 {summary.compressed}",
    s!"Skipped:                    {summary.skipped}"] ++
  (if summary.verified + summary.failures > 0 then
    [s!"Verified round trips:       {summary.verified} ok, {summary.failures} failed"]
  else []) ++
  ["Total original header:      " ++ bitsText sizes.originalBits,
    "Total compressed header:    " ++ bitsText sizes.compressedBits] ++
  (if sizes.originalBits > 0 then
    [s!"Total bits saved:           {sizes.savedBits} bits (" ++
        Text.floatFixed 1 (savedPercent sizes) ++ "%)",
      "Compression ratio:          " ++ Text.floatFixed 2 (compressionRatio sizes) ++ ":1"]
  else []) ++
  [ruler]

def report (name : String) (settings : Settings) (max : Nat) (frames : List (List UInt8)) :
    List String :=
  [ruler, "Processing " ++ name, ruler, ""] ++
    ((outcomes settings max frames).zipIdx.flatMap fun (outcome, i) => outcomeLines (i + 1) outcome)
    ++ (summarize settings max frames).lines

end HeaderCompression.Capture
