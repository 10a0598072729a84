import HeaderCompression.Header.Coap
import HeaderCompression.Header.Ipv6
import HeaderCompression.Rule.Device

namespace HeaderCompression

structure Endpoint where
  direction : Direction
  address? : Option Ipv6Address
  capacity? : Option Nat
  columns : List Column
  deriving DecidableEq, Repr

namespace Endpoint

def ofDirection (direction : Direction) : Endpoint :=
  ⟨direction, none, none, []⟩

def ofDevice (device : Device) (direction : Direction) : Endpoint :=
  { ofDirection direction with address? := device.address? }

def withCapacity (capacity : Nat) (endpoint : Endpoint) : Endpoint :=
  { endpoint with capacity? := some capacity }

def withAddress (address? : Option Ipv6Address) (endpoint : Endpoint) : Endpoint :=
  { endpoint with address? }

def interfaceId? (endpoint : Endpoint) : Option (List UInt8) :=
  endpoint.address?.map (·.interfaceId)

end Endpoint

/-- The columns of the header at the front of a layer's data, and the length of that header. -/
def Layer.columns (layer : Layer) (direction : Direction) (data : List UInt8) :
    Except Error (List Column × Nat) :=
  match layer with
  | .network => return (← Ipv6Header.columns direction data, data.length)
  | .transport => return (← UdpHeader.columns direction data, data.length)
  | .application => CoapHeader.columns data

def Layer.header (layer : Layer) (direction : Direction) (columns : List Column) :
    Except Error (List UInt8) :=
  match layer with
  | .network => Ipv6Header.ofColumns direction columns
  | .transport => UdpHeader.ofColumns direction columns
  | .application => CoapHeader.ofColumns columns

/-- Takes a header apart into the endpoint's columns; gives its length. -/
def Endpoint.load (endpoint : Endpoint) (layer : Layer) (data : List UInt8) :
    Except Error Nat × Endpoint :=
  match layer.columns endpoint.direction data with
  | .error error => (.error error, { endpoint with columns := [] })
  | .ok (columns, length) => (.ok length, { endpoint with columns })

end HeaderCompression
