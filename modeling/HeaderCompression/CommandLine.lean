import HeaderCompression.Capture.PcapNg
import HeaderCompression.Capture.Report
import HeaderCompression.Rule.Document
import HeaderCompression.Text.Blank

namespace HeaderCompression.CommandLine

inductive Command where
  | compress (packet : String) (capacity? : Option Nat)
  | decompress (data : String)
  | capture (path : String) (link : LinkLayer) (max : Nat) (verify : Bool)
  deriving DecidableEq, Repr

structure Request where
  rulesPath : String
  device : Nat
  direction : Direction
  command : Command
  deriving DecidableEq, Repr

structure Result where
  code : Nat
  output : String
  errors : String
  deriving DecidableEq, Repr

structure Draft where
  rulesPath : String := "samples/coap_device.json"
  device : Nat := 1
  direction : Direction := .up
  command : Option String := none
  operand : Option String := none
  capacity : Option Nat := none
  link : LinkLayer := .ethernet
  max : Nat := 0
  verify : Bool := false

def direction? : String → Option Direction
  | "up" => some .up
  | "down" => some .down
  | _ => none

def Draft.setSwitch? (draft : Draft) (name : String) : Option Draft :=
  match name, draft.command with
  | "--debug", _ | "-d", _ => some draft
  | "--verify", some "pcap" | "-v", some "pcap" => some { draft with verify := true }
  | _, _ => none

def Draft.setOption? (draft : Draft) (name value : String) : Option Draft :=
  match name, draft.command with
  | "--rules", _ | "-r", _ => some { draft with rulesPath := value }
  | "--device", _ =>
    (Text.naturalBelow? UInt32.size value.toList).map fun device => { draft with device }
  | "--direction", _ => (direction? value).map fun direction => { draft with direction }
  | "--capacity", some "compress" =>
    (Text.naturalBelow? UInt64.size value.toList).map fun capacity =>
      { draft with capacity := some capacity }
  | "--link-layer", some "pcap" =>
    (LinkLayer.ofString? value).map fun link => { draft with link }
  | "--max-packets", some "pcap" | "-m", some "pcap" =>
    (Text.naturalBelow? UInt64.size value.toList).map fun max => { draft with max }
  | _, _ => none

def Draft.addOperand? (draft : Draft) (text : String) : Option Draft :=
  match draft.command, draft.operand with
  | none, _ =>
    if ["compress", "decompress", "pcap"].contains text then
      some { draft with command := some text }
    else none
  | some _, none => some { draft with operand := some text }
  | some _, some _ => none

/-- Whether an argument names an option; a single dash does not. -/
def isOption (argument : String) : Bool :=
  match argument.toList with
  | '-' :: _ :: _ => true
  | _ => false

/-- Takes an argument, and the one behind it where it is the value of an option; tells whether it
was. -/
def Draft.add? (draft : Draft) (argument : String) (next? : Option String) :
    Option (Draft × Bool) :=
  if !isOption argument then (draft.addOperand? argument).map (·, false)
  else
    match draft.setSwitch? argument with
    | some draft => some (draft, false)
    | none =>
      let name := argument.toList.takeWhile (· != '=')
      match argument.toList.drop name.length, next? with
      | _ :: value, _ =>
        (draft.setOption? (String.ofList name) (String.ofList value)).map (·, false)
      | [], some value =>
        if isOption value then none else (draft.setOption? argument value).map (·, true)
      | [], none => none

def Draft.read? (draft : Draft) : List String → Option Draft
  | [] => some draft
  | [argument] => (draft.add? argument none).map (·.1)
  | argument :: next :: rest =>
    match draft.add? argument (some next) with
    | none => none
    | some (draft, true) => draft.read? rest
    | some (draft, false) => draft.read? (next :: rest)

def Request.ofArguments? (arguments : List String) : Option Request := do
  let draft ← Draft.read? {} arguments
  let operand ← draft.operand
  let command ← match draft.command with
    | some "compress" => some (Command.compress operand draft.capacity)
    | some "decompress" => some (Command.decompress operand)
    | some _ => some (Command.capture operand draft.link draft.max draft.verify)
    | none => none
  return ⟨draft.rulesPath, draft.device, draft.direction, command⟩

def unlines (lines : List String) : String :=
  String.join (lines.map (· ++ "\n"))

def failure (doing : String) (causes : List String) : Result :=
  let causeLines := match causes with
    | [cause] => ["    " ++ cause]
    | causes => causes.zipIdx.map fun (cause, i) => s!"    {i}: " ++ cause
  ⟨1, "", unlines (["Error: " ++ doing, "", "Caused by:"] ++ causeLines)⟩

def causes (error : Error) : List String :=
  match error with
  | .file text => [error.message, text]
  | .document fault => [error.message, fault.message]
  | _ => [error.message]

def usage : Result :=
  ⟨2, "", unlines [
    "Usage: schc-compressor [--rules FILE] [--device ID] [--direction up|down] COMMAND",
    "",
    "Commands:",
    "  compress PACKET [--capacity BYTES]",
    "  decompress DATA",
    "  pcap FILE [--link-layer LAYER] [--max-packets N] [--verify]"]⟩

def dropHexMarks : List Char → List Char
  | '0' :: 'x' :: rest => dropHexMarks rest
  | text => text

/-- Reads digits that may be preceded by `0x` and broken up by blanks and colons. -/
def readHex (text : String) : Except Text.HexFault (List UInt8) :=
  Text.bytesOfHex (String.ofList
    ((dropHexMarks (Text.trimBlanks text.toList)).filter fun c => !Text.isBlank c && c != ':'))

def runCompress (device : Device) (direction : Direction) (packet : String)
    (capacity? : Option Nat) : Result :=
  match readHex packet with
  | .error fault => failure "Input is not valid hex" [fault.message]
  | .ok bytes =>
    let endpoint := { Endpoint.ofDevice device direction with capacity? }
    match (compress device bytes endpoint).1 with
    | .error error => failure "Compression failed" (causes error)
    | .ok result =>
      ⟨0, unlines [Text.hexOfBytes result.data], unlines [Capture.savingText bytes result]⟩

def runDecompress (device : Device) (direction : Direction) (data : String) : Result :=
  match readHex data with
  | .error fault => failure "Input is not valid hex" [fault.message]
  | .ok bytes =>
    match decompress device (.ofDevice device direction) bytes with
    | .error error => failure "Decompression failed" (causes error)
    | .ok result =>
      ⟨0, unlines [Text.hexOfBytes result.data],
        unlines [Capture.sizeText bytes result.data ++ " (Rule: " ++ result.code.text ++ ")"]⟩

structure Files where
  rules : Except String (List UInt8)
  frames : Except Capture.Fault (List (List UInt8))

def runCapture (device : Device) (direction : Direction) (path : String) (link : LinkLayer)
    (max : Nat) (verify : Bool) (frames : Except Capture.Fault (List (List UInt8))) : Result :=
  match frames with
  | .error (.unreadable reason) => failure ("Failed to open " ++ path) [reason]
  | .error .noSectionHeader =>
    failure "Failed to create pcapng reader" ["the file has no section header"]
  | .ok frames =>
    let settings : Capture.Settings := ⟨device, direction, link, verify⟩
    ⟨0, unlines (Capture.report path settings max frames), ""⟩

/-- The rules come first: a fault in them wins over whatever is wrong with the packet. -/
def Request.run (request : Request) (files : Files) : Result :=
  match (RuleSet.loadFile files.rules).result with
  | .error error => failure ("Failed to load rules from " ++ request.rulesPath) (causes error)
  | .ok set =>
    match set.device request.device with
    | .error error => failure "Failed to select device" (causes error)
    | .ok device =>
      match request.command with
      | .compress packet capacity? => runCompress device request.direction packet capacity?
      | .decompress data => runDecompress device request.direction data
      | .capture path link max verify =>
        runCapture device request.direction path link max verify files.frames

end HeaderCompression.CommandLine
