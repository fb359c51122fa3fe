import Recap.Blaze.Framing
import Recap.Blaze.ParserFrame
import Recap.Blaze.ParserTree

/-! The requests that a connection dispatches, by how the socket cuts up the bytes it is sent. -/

namespace Recap.Blaze

/-- A request with the document of its body, as a component is given it. -/
structure Dispatch where
  request : Request
  document : Json

namespace Client

/-- `parse_packets`, up to the dispatch. It reads the length of the body, and never looks at it. -/
def parsePackets (env : Env) (fuel : Nat) : Parser.Parse Dispatch := do
  let request ← parseHeader
  let document ← Parser.read env fuel
  return ⟨request, document⟩

/-- `position() < bytes_transferred` -/
def morePackets (bytesTransferred : Nat) : Parser.Parse Bool :=
  .act fun r => (decide (r.buffer.position < bytesTransferred), r)

/-- One round of the loop in `handle_read`, with what has been dispatched until then. -/
def parseNext (env : Env) (fuel : Nat) (dispatched : List Dispatch) : Parser.Parse (List Dispatch) := do
  let next ← parsePackets env fuel
  return dispatched ++ [next]

/-- What `handle_read` starts to parse: the bytes that were delivered. -/
def received (r : Reader) (bytes : Bytes) : Reader := { r with buffer := r.buffer.receive bytes }

/-- `handle_read` -/
def handleRead (env : Env) (fuel : Nat) (bytes : Bytes) (dispatched : List Dispatch) :
    Parser.Parse (List Dispatch) := fun r =>
  Program.loop (fun _ => false) (morePackets (r.buffer.delivered bytes).length)
    (parseNext env fuel) fuel dispatched (received r bytes)

/-- `mReadBuffer`, as the constructor leaves it. -/
def readBuffer : DataBuffer := DataBuffer.empty.resize 10240

end Client

/-- A request that a client sends: the fields of its header but for the length, and its body. -/
structure Sent where
  component : UInt16
  command : UInt16
  errorCode : UInt16
  message : UInt32
  body : Members

namespace Sent

/-- The header has room for the length of the body. -/
structure WellFormed (sent : Sent) : Prop where
  fields : sent.body.Fields
  short : sent.body.fieldBytes.length < 2 ^ 16

/-- The length field of the header. -/
def length (sent : Sent) : UInt16 := UInt16.ofNat sent.body.fieldBytes.length

def bytes (sent : Sent) : Bytes :=
  Client.headerBytes sent.length sent.component sent.command sent.errorCode sent.message ++
    sent.body.fieldBytes

end Sent

namespace Client

/-- A request without a body. -/
def bare (message : UInt32) : Sent := ⟨1, 2, 0, message, .nil⟩

end Client
end Recap.Blaze
