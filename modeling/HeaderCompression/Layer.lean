namespace HeaderCompression

inductive Layer where
  | network
  | transport
  | application
  deriving DecidableEq, Repr

def Layer.name : Layer → String
  | .network => "IPv6"
  | .transport => "UDP"
  | .application => "CoAP"

def Layer.all : List Layer := [.network, .transport, .application]

/-- Where a packet goes: up from the device to the application, or down to the device. -/
inductive Direction where
  | up
  | down
  deriving DecidableEq, Repr

def Direction.name : Direction → String
  | .up => "Up"
  | .down => "Down"

def Direction.all : List Direction := [.up, .down]

end HeaderCompression
