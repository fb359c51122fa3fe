import Recap.Core.BigEndian

/-! The server that answers the datagrams by which a client measures its connection. -/

namespace Recap.QoS

/-- The address and the port that a datagram comes from. -/
structure Endpoint where
  address : UInt32
  port : UInt16
  deriving DecidableEq, Repr

/-- A datagram, where it comes from, and what uninitialised locals hold while it is handled. -/
structure Arrival where
  datagram : Bytes
  remoteEndpoint : Endpoint
  uninit : Nat → Nat

/-- `Server`, as far as its buffers go. -/
structure Server where
  readBuffer : DataBuffer
  writeBuffer : DataBuffer
  deriving DecidableEq, Repr

namespace Server

/-- A server as it is constructed. -/
def new : Server := ⟨DataBuffer.empty.resize 10240, .empty⟩

/-- What `async_send_to` is given: everything that the buffer owns, if anything was written. -/
def sent (writeBuffer : DataBuffer) : Option Bytes :=
  if 0 < writeBuffer.size then some writeBuffer.buffer else none

/-- The answer to a request of version 1, which says where the request came from. -/
def writeFirst (writeBuffer : DataBuffer) (id version requestSecret requestId ticks : Nat)
    (remote : Endpoint) : DataBuffer :=
  let writeBuffer := writeBuffer.writeBE 4 id
  let writeBuffer := writeBuffer.writeBE 4 version
  let writeBuffer := writeBuffer.writeBE 4 requestSecret
  let writeBuffer := writeBuffer.writeBE 4 requestId
  let writeBuffer := writeBuffer.writeBE 4 ticks
  let writeBuffer := writeBuffer.writeBE 4 remote.address.toNat
  let writeBuffer := writeBuffer.writeBE 2 remote.port.toNat
  writeBuffer.writeBE 4 0x12345678

/-- The answer to a request of version 2, in which all but two numbers are fixed. -/
def writeSecond (writeBuffer : DataBuffer) (id version : Nat) : DataBuffer :=
  [id, version, 0x1337, 2, 0, 2, 0xDEAD, 2, 0xBEEF, 2, 0x8925].foldl
    (fun writeBuffer value => writeBuffer.writeBE 4 value) writeBuffer

/-- `handle_read` without an error, with what is sent back. -/
def handleRead (server : Server) (arrival : Arrival) : Option Bytes × Server :=
  let reader : Reader := ⟨server.readBuffer.receive arrival.datagram, arrival.uninit⟩
  let (id, reader) := reader.readBE 4
  let (version, reader) := reader.readBE 4
  let writeBuffer := server.writeBuffer.clear
  if version = 1 then
    let (requestSecret, reader) := reader.readBE 4
    let (requestId, reader) := reader.readBE 4
    let (ticks, reader) := reader.readBE 4
    let writeBuffer :=
      writeFirst writeBuffer id version requestSecret requestId ticks arrival.remoteEndpoint
    (sent writeBuffer, ⟨reader.buffer, writeBuffer⟩)
  else if version = 2 then
    let writeBuffer := writeSecond writeBuffer id version
    (sent writeBuffer, ⟨reader.buffer, writeBuffer⟩)
  else (sent writeBuffer, ⟨reader.buffer, writeBuffer⟩)

/-- The server once some datagrams have been handled. -/
def after (arrivals : List Arrival) : Server :=
  arrivals.foldl (fun server arrival => (server.handleRead arrival).2) new

end Server

/-! ## What is sent back -/

/-- The numbers of an answer of version 2 behind its first two. -/
def secondTail : List Nat := [0x1337, 2, 0, 2, 0xDEAD, 2, 0xBEEF, 2, 0x8925]

/-- The answer to what stands in the buffer, of which only the first twenty bytes count. -/
def answer (held : Bytes) (remote : Endpoint) : Option Bytes :=
  if (held.drop 4).take 4 = [0, 0, 0, 1] then
    some (held.take 20 ++ bigBytes 4 remote.address.toNat ++ bigBytes 2 remote.port.toNat ++
      bigBytes 4 0x12345678 ++ List.replicate 34 0)
  else if (held.drop 4).take 4 = [0, 0, 0, 2] then
    some (held.take 8 ++ secondTail.flatMap (bigBytes 4) ++ List.replicate 20 0)
  else none

/-- The buffer once a datagram has been delivered over its front. -/
def overlay (held datagram : Bytes) : Bytes :=
  datagram.take held.length ++ held.drop (datagram.take held.length).length

/-! ## The buffer that is written -/

/-- The buffer of 64 bytes that some bytes have been written into. -/
def filled (bytes : Bytes) : DataBuffer :=
  ⟨bytes ++ List.replicate (64 - bytes.length) 0, bytes.length, bytes.length⟩

/-- The buffer does not have to grow for what it has room for. -/
theorem makeRoom_filled {bytes more : Bytes} (room : bytes.length + more.length ≤ 64) :
    (filled bytes).makeRoom more.length = filled bytes := by
  have short : bytes.length + more.length < wordBound := by
    simp only [wordBound]
    omega
  rw [DataBuffer.makeRoom, if_pos]
  simp only [DataBuffer.canRw, filled, Nat.mod_eq_of_lt short, decide_eq_true_eq, List.length_append,
    List.length_replicate]
  omega

/-- What still has room in the buffer is written behind what is there, over the zeros. -/
theorem implWrite_filled {bytes more : Bytes} (room : bytes.length + more.length ≤ 64) :
    (filled bytes).implWrite more = filled (bytes ++ more) := by
  have short : bytes.length + more.length < wordBound := by
    simp only [wordBound]
    omega
  have left : 64 - bytes.length - more.length = 64 - (bytes.length + more.length) := by omega
  unfold DataBuffer.implWrite
  rw [makeRoom_filled room]
  simp only [filled, Nat.mod_eq_of_lt short, List.take_left, List.length_append, List.append_assoc,
    DataBuffer.mk.injEq, and_true]
  constructor
  · rw [← List.drop_drop, List.drop_left, List.drop_replicate, left]
  · omega

/-- The first write allocates 64 bytes. -/
theorem implWrite_empty {bytes : Bytes} (nonempty : bytes ≠ []) (room : bytes.length ≤ 64) :
    DataBuffer.empty.implWrite bytes = filled bytes := by
  have positive := List.length_pos_iff.mpr nonempty
  have short : 0 + bytes.length < wordBound := by
    simp only [wordBound]
    omega
  have grown : DataBuffer.empty.makeRoom bytes.length = filled [] := by
    rw [DataBuffer.makeRoom, if_neg]
    · change (filled []).makeRoom bytes.length = filled []
      exact makeRoom_filled (by simpa using room)
    · simp only [DataBuffer.canRw, DataBuffer.empty, Nat.mod_eq_of_lt short, List.length_nil,
        decide_eq_true_eq]
      omega
  -- From there on it is a write into a buffer with room for it.
  have written : (filled []).implWrite bytes = filled ([] ++ bytes) :=
    implWrite_filled (by simpa using room)
  unfold DataBuffer.implWrite at written ⊢
  rw [makeRoom_filled (by simpa using room)] at written
  rw [grown]
  exact written

/-- Numbers are written one behind the other while there is room for them. -/
theorem writeBE_foldl {bytes : Bytes} {numbers : List Nat}
    (room : bytes.length + 4 * numbers.length ≤ 64) :
    numbers.foldl (fun buffer value => buffer.writeBE 4 value) (filled bytes) =
      filled (bytes ++ numbers.flatMap (bigBytes 4)) := by
  induction numbers generalizing bytes with
  | nil => simp
  | cons number rest ih =>
    rw [List.length_cons] at room
    have now : (filled bytes).writeBE 4 number = filled (bytes ++ bigBytes 4 number) := by
      rw [DataBuffer.writeBE_eq]
      exact implWrite_filled (by rw [bigBytes_length]; omega)
    have later := @ih (bytes ++ bigBytes 4 number) (by
      rw [List.length_append, bigBytes_length]
      omega)
    rw [List.foldl_cons, now, later, List.flatMap_cons, List.append_assoc]

end Recap.QoS
