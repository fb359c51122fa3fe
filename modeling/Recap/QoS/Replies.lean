import Recap.QoS.Server

/-! What the bytes of a reply are, over every history, and when they depend on earlier datagrams. -/

namespace Recap.QoS

open DataBuffer Reader

/-! ## One datagram -/

/-- The answer of version 1 is what was read, the sender's endpoint, and a number. -/
theorem writeFirst_eq (id version requestSecret requestId ticks : Nat) (remote : Endpoint) :
    Server.writeFirst .empty id version requestSecret requestId ticks remote =
      filled ([id, version, requestSecret, requestId, ticks].flatMap (bigBytes 4) ++
        bigBytes 4 remote.address.toNat ++ bigBytes 2 remote.port.toNat ++
          bigBytes 4 0x12345678) := by
  have start : DataBuffer.empty.writeBE 4 id = filled (bigBytes 4 id) := by
    rw [writeBE_eq]
    refine implWrite_empty (List.ne_nil_of_length_pos ?_) ?_ <;> rw [bigBytes_length] <;> decide
  have numbers := @writeBE_foldl (bigBytes 4 id)
    [version, requestSecret, requestId, ticks, remote.address.toNat] (by simp)
  simp only [List.foldl_cons, List.foldl_nil] at numbers
  simp only [Server.writeFirst, start, numbers]
  -- The port has two bytes only.
  rw [writeBE_eq, writeBE_eq, implWrite_filled (by simp), implWrite_filled (by simp)]
  simp

/-- The answer of version 2 is what was read of it and fixed numbers. -/
theorem writeSecond_eq (id version : Nat) :
    Server.writeSecond .empty id version =
      filled ([id, version].flatMap (bigBytes 4) ++ secondTail.flatMap (bigBytes 4)) := by
  have start : DataBuffer.empty.writeBE 4 id = filled (bigBytes 4 id) := by
    rw [writeBE_eq]
    refine implWrite_empty (List.ne_nil_of_length_pos ?_) ?_ <;> rw [bigBytes_length] <;> decide
  have numbers := @writeBE_foldl (bigBytes 4 id) (version :: secondTail) (by simp [secondTail])
  have list : [id, version, 0x1337, 2, 0, 2, 0xDEAD, 2, 0xBEEF, 2, 0x8925] =
    id :: version :: secondTail := rfl
  rw [Server.writeSecond, list, List.foldl_cons, start, numbers]
  simp

/-- What is written is sent with zeros up to 64 bytes. -/
theorem sent_filled {bytes : Bytes} (positive : 0 < bytes.length) :
    Server.sent (filled bytes) = some (bytes ++ List.replicate (64 - bytes.length) 0) := by
  rw [Server.sent, if_pos]
  · rfl
  · exact positive

/-- A version is one number exactly when its bytes are those of the number. -/
theorem version_iff {version : Nat} {bytes : Bytes} (small : version < 256 ^ 4)
    (stands : bigBytes 4 version = bytes) (number : Nat) (fits : number < 256 ^ 4) :
    version = number ↔ bytes = bigBytes 4 number := by
  constructor
  · intro same
    rw [← stands, same]
  · intro same
    exact bigBytes_inj small fits (stands.trans same)

/-- A datagram is answered by what stands in the buffer once it has been delivered there. -/
theorem handleRead_eq {server : Server} (whole : server.readBuffer.buffer.length = 10240)
    (arrival : Arrival) :
    (server.handleRead arrival).1 =
        answer (overlay server.readBuffer.buffer arrival.datagram) arrival.remoteEndpoint ∧
      (server.handleRead arrival).2.readBuffer.buffer =
        overlay server.readBuffer.buffer arrival.datagram := by
  have received := server.readBuffer.receive_eq arrival.datagram
  generalize kept : overlay server.readBuffer.buffer arrival.datagram = held
  have length : held.length = 10240 := by
    rw [← kept, overlay, List.length_append, List.length_drop, List.length_take]
    omega
  generalize start : (⟨server.readBuffer.receive arrival.datagram, arrival.uninit⟩ : Reader) = reader
  have rest : reader.rest = held := by
    rw [← start, Reader.rest, received, ← kept]
    rfl
  have buffer : reader.buffer.buffer = held := by
    rw [← start, received, ← kept]
    rfl
  have position : reader.buffer.position = 0 := by
    rw [← start, received]
  -- Each of the five numbers is read behind the one before it, and all are inside the buffer.
  have number : ∀ place ≤ 16, ∃ value, (reader.advance place).readBE 4 =
      (value, reader.advance (place + 4)) ∧ value < 256 ^ 4 ∧
        bigBytes 4 value = (held.drop place).take 4 := by
    intro place near
    have inside : 4 ≤ (reader.advance place).rest.length := by
      rw [advance_rest, rest, List.length_drop]
      omega
    obtain ⟨value, read, small, stands⟩ := Reader.readBE_of_rest (by decide : 0 < 4) inside (by
      rw [advance_position, position]
      simp only [wordBound]
      omega)
    rw [advance_advance] at read
    rw [advance_rest, rest] at stands
    exact ⟨value, read, small, stands⟩
  obtain ⟨id, readId, -, idBytes⟩ := number 0 (by decide)
  obtain ⟨version, readVersion, small, versionBytes⟩ := number 4 (by decide)
  obtain ⟨secret, readSecret, -, secretBytes⟩ := number 8 (by decide)
  obtain ⟨request, readRequest, -, requestBytes⟩ := number 12 (by decide)
  obtain ⟨ticks, readTicks, -, ticksBytes⟩ := number 16 (by decide)
  rw [advance_zero, Nat.zero_add] at readId
  rw [List.drop_zero] at idBytes
  have first := version_iff small versionBytes 1 (by decide)
  have second := version_iff small versionBytes 2 (by decide)
  have one : bigBytes 4 1 = [0, 0, 0, 1] := by decide
  have two : bigBytes 4 2 = [0, 0, 0, 2] := by decide
  rw [one] at first
  rw [two] at second
  simp only [Server.handleRead, start, readId, readVersion, readSecret, readRequest, readTicks,
    DataBuffer.clear]
  have echoed : [id, version].flatMap (bigBytes 4) = held.take 8 := by
    rw [List.take_add (i := 4) (j := 4), ← idBytes, ← versionBytes]
    simp
  by_cases isFirst : version = 1
  · have more : [id, version, secret, request, ticks].flatMap (bigBytes 4) = held.take 20 := by
      rw [List.take_add (i := 8) (j := 12), ← echoed, List.take_add (i := 4) (j := 8),
        ← secretBytes, List.drop_drop, List.take_add (i := 4) (j := 4), ← requestBytes,
        List.drop_drop, ← ticksBytes]
      simp
    rw [if_pos isFirst, answer, if_pos (first.mp isFirst), writeFirst_eq, more]
    refine ⟨?_, buffer⟩
    -- Thirty bytes have been written, and the buffer has 64.
    simp only
    rw [sent_filled (by simp [length])]
    simp [length]
  · by_cases isSecond : version = 2
    · have other : ¬ (held.drop 4).take 4 = [0, 0, 0, 1] := mt first.mpr isFirst
      rw [if_neg isFirst, if_pos isSecond, answer, if_neg other, if_pos (second.mp isSecond),
        writeSecond_eq, echoed]
      refine ⟨?_, buffer⟩
      simp only
      rw [sent_filled (by simp [length])]
      simp [length, secondTail]
    · rw [if_neg isFirst, if_neg isSecond, answer, if_neg (mt first.mpr isFirst),
        if_neg (mt second.mpr isSecond)]
      exact ⟨rfl, buffer⟩

/-! ## Histories -/

/-- What stands at a place of the buffer: the byte of the last datagram that was long enough. -/
def remembered (datagrams : List Bytes) (place : Nat) : UInt8 :=
  (datagrams.reverse.findSome? fun datagram => datagram[place]?).getD 0

/-- The datagrams of a history. -/
def datagrams (arrivals : List Arrival) : List Bytes := arrivals.map Arrival.datagram

theorem overlay_length (held datagram : Bytes) : (overlay held datagram).length = held.length := by
  simp only [overlay, List.length_append, List.length_drop, List.length_take]
  omega

/-- A datagram stands over the front of what was there before. -/
theorem overlay_getElem? {held : Bytes} {place : Nat} (inside : place < held.length)
    (datagram : Bytes) : (overlay held datagram)[place]? = datagram[place]?.or held[place]? := by
  unfold overlay
  by_cases short : place < datagram.length
  · rw [List.getElem?_append_left (by rw [List.length_take]; omega), List.getElem?_take_of_lt inside,
      List.getElem?_eq_getElem short, Option.some_or]
  · have length : (datagram.take held.length).length = datagram.length := by
      rw [List.length_take]
      omega
    rw [length, List.getElem?_append_right (by omega), length, List.getElem?_drop,
      List.getElem?_eq_none (Nat.le_of_not_lt short), Option.none_or]
    congr 1
    omega

/-- After a history the buffer is as large as ever, and holds what is remembered. -/
theorem after_held (arrivals : List Arrival) :
    (Server.after arrivals).readBuffer.buffer =
      (List.range 10240).map (remembered (datagrams arrivals)) := by
  -- The induction takes off the last datagram, which stands over the ones before it.
  induction arrivals using List.reverseRecOn with
  | nil =>
    have start : (DataBuffer.empty.resize 10240).buffer = List.replicate 10240 0 := by
      simp only [DataBuffer.resize, DataBuffer.empty, List.length_nil, DataBuffer.reserve,
        List.take_nil, List.nil_append, Nat.sub_zero]
      rfl
    have zeros : remembered (datagrams []) = fun _ => 0 := rfl
    rw [zeros, List.map_const', List.length_range]
    exact start
  | append_singleton earlier arrival ih =>
    have whole : (Server.after earlier).readBuffer.buffer.length = 10240 := by
      rw [ih, List.length_map, List.length_range]
    have handled : Server.after (earlier ++ [arrival]) =
        ((Server.after earlier).handleRead arrival).2 := by
      rw [Server.after, List.foldl_append]
      rfl
    rw [handled, (handleRead_eq whole arrival).2]
    apply List.ext_getElem?
    intro place
    by_cases inside : place < 10240
    · rw [overlay_getElem? (by rw [whole]; exact inside), ih, List.getElem?_map, List.getElem?_map,
        List.getElem?_range inside]
      simp only [Option.map_some, datagrams, List.map_append, List.map_singleton, remembered,
        List.reverse_append, List.reverse_singleton, List.singleton_append, List.findSome?_cons]
      cases arrival.datagram[place]? <;> rfl
    · rw [List.getElem?_eq_none (by rw [overlay_length, whole]; omega),
        List.getElem?_eq_none (by simp; omega)]

/-- Only the first twenty bytes of the buffer count. -/
theorem answer_take (held : Bytes) (remote : Endpoint) :
    answer held remote = answer (held.take 20) remote := by
  have version : ((held.take 20).drop 4).take 4 = (held.drop 4).take 4 := by
    rw [List.drop_take, List.take_take]
    rfl
  unfold answer
  rw [version, List.take_take, List.take_take]
  rfl

/--
The reply to a datagram is made of the bytes that are remembered at the first twenty places.

These are its own bytes as far as it reaches, and behind them those of earlier datagrams.
-/
theorem handleRead_after (arrivals : List Arrival) (arrival : Arrival) :
    ((Server.after arrivals).handleRead arrival).1 =
      answer ((List.range 20).map (remembered (datagrams (arrivals ++ [arrival]))))
        arrival.remoteEndpoint := by
  have whole : (Server.after arrivals).readBuffer.buffer.length = 10240 := by
    rw [after_held, List.length_map, List.length_range]
  have handled : ((Server.after arrivals).handleRead arrival).2 =
      Server.after (arrivals ++ [arrival]) := by
    rw [Server.after, Server.after, List.foldl_append]
    rfl
  have held := (handleRead_eq whole arrival).2
  rw [handled, after_held] at held
  rw [(handleRead_eq whole arrival).1, ← held, answer_take, ← List.map_take, List.take_range]
  rfl

/-! ## Replies that depend on nothing else -/

/--
Whether a datagram settles its reply by itself.

It has all that a version 1 reply repeats, or a last byte of a version that is not 1, or a byte in front of
that which no version that is answered has.
-/
def Settled (datagram : Bytes) : Prop :=
  20 ≤ datagram.length ∨ 8 ≤ datagram.length ∧ datagram[7]? ≠ some 1 ∨
    ∃ place, 4 ≤ place ∧ place < 7 ∧ datagram[place]?.getD 0 ≠ 0

/-- A byte of the datagram itself is remembered. -/
theorem remembered_own {datagram : Bytes} {place : Nat} (inside : place < datagram.length)
    (earlier : List Bytes) : remembered (earlier ++ [datagram]) place = datagram[place] := by
  simp [remembered, List.getElem?_eq_getElem inside]

/-- A byte behind the datagram is the one that was remembered before. -/
theorem remembered_stale {datagram : Bytes} {place : Nat} (behind : datagram.length ≤ place)
    (earlier : List Bytes) :
    remembered (earlier ++ [datagram]) place = remembered earlier place := by
  simp [remembered, List.getElem?_eq_none behind]

/-- The version that stands in what is remembered. -/
theorem remembered_version (datagrams : List Bytes) :
    ((((List.range 20).map (remembered datagrams)).drop 4).take 4) =
      [remembered datagrams 4, remembered datagrams 5, remembered datagrams 6,
        remembered datagrams 7] := rfl

/-- The reply to what is remembered, sorted by the version. -/
theorem answer_remembered (datagrams : List Bytes) (remote : Endpoint) :
    answer ((List.range 20).map (remembered datagrams)) remote =
      if (remembered datagrams 4 = 0 ∧ remembered datagrams 5 = 0 ∧ remembered datagrams 6 = 0) then
        if remembered datagrams 7 = 1 then
          some ((List.range 20).map (remembered datagrams) ++ bigBytes 4 remote.address.toNat ++
            bigBytes 2 remote.port.toNat ++ bigBytes 4 0x12345678 ++ List.replicate 34 0)
        else if remembered datagrams 7 = 2 then
          some ((List.range 8).map (remembered datagrams) ++ secondTail.flatMap (bigBytes 4) ++
            List.replicate 20 0)
        else none
      else none := by
  have all : ((List.range 20).map (remembered datagrams)).take 20 =
    (List.range 20).map (remembered datagrams) := rfl
  have front : ((List.range 20).map (remembered datagrams)).take 8 =
    (List.range 8).map (remembered datagrams) := rfl
  unfold answer
  rw [remembered_version, all, front]
  simp only [List.cons.injEq, and_true]
  by_cases zeros : remembered datagrams 4 = 0 ∧ remembered datagrams 5 = 0 ∧
      remembered datagrams 6 = 0
  · simp [zeros]
  · have no : ∀ last : UInt8, ¬ (remembered datagrams 4 = 0 ∧ remembered datagrams 5 = 0 ∧
        remembered datagrams 6 = 0 ∧ remembered datagrams 7 = last) :=
      fun _ all => zeros ⟨all.1, all.2.1, all.2.2.1⟩
    rw [if_neg zeros, if_neg (no 1), if_neg (no 2)]

/-- What is remembered of a settled datagram is the same after every history, as far as it counts. -/
theorem answer_of_settled {datagram : Bytes} (settled : Settled datagram)
    (earlier other : List Bytes) (remote : Endpoint) :
    answer ((List.range 20).map (remembered (earlier ++ [datagram]))) remote =
      answer ((List.range 20).map (remembered (other ++ [datagram]))) remote := by
  -- A byte that is there is the same in both.
  have own : ∀ place < datagram.length,
      remembered (earlier ++ [datagram]) place = remembered (other ++ [datagram]) place := by
    intro place inside
    rw [remembered_own inside, remembered_own inside]
  have front : ∀ count ≤ datagram.length,
      (List.range count).map (remembered (earlier ++ [datagram])) =
        (List.range count).map (remembered (other ++ [datagram])) := by
    intro count enough
    refine List.map_congr_left fun place member => own place ?_
    have := List.mem_range.mp member
    omega
  rcases settled with long | ⟨enough, last⟩ | ⟨place, least, most, nonzero⟩
  · rw [front 20 long]
  · rw [answer_remembered, answer_remembered, own 4 (by omega), own 5 (by omega), own 6 (by omega),
      own 7 (by omega), front 8 enough]
    have seventh : remembered (other ++ [datagram]) 7 ≠ 1 := by
      intro same
      rw [remembered_own (by omega)] at same
      exact last (by rw [List.getElem?_eq_getElem (by omega), same])
    rw [if_neg seventh, if_neg seventh]
  · -- The byte is there, so that the version is one that is not answered.
    have inside : place < datagram.length := by
      by_contra short
      rw [List.getElem?_eq_none (Nat.le_of_not_lt short)] at nonzero
      exact nonzero rfl
    rw [List.getElem?_eq_getElem inside, Option.getD_some] at nonzero
    have silent : ∀ before, ¬ (remembered (before ++ [datagram]) 4 = 0 ∧
        remembered (before ++ [datagram]) 5 = 0 ∧ remembered (before ++ [datagram]) 6 = 0) := by
      intro before ⟨fourth, fifth, sixth⟩
      have zero : remembered (before ++ [datagram]) place = 0 := by
        obtain rfl | rfl | rfl : place = 4 ∨ place = 5 ∨ place = 6 := by omega
        · exact fourth
        · exact fifth
        · exact sixth
      rw [remembered_own inside] at zero
      exact nonzero zero
    rw [answer_remembered, answer_remembered, if_neg (silent earlier), if_neg (silent other)]

/-- What is remembered of two datagrams. -/
theorem remembered_pair (stale datagram : Bytes) (place : Nat) :
    remembered [stale, datagram] place = (datagram[place]?.or stale[place]?).getD 0 := by
  cases own : datagram[place]? with
  | some byte => simp [remembered, own]
  | none => cases before : stale[place]? <;> simp [remembered, own, before]

/-- The zeros of a version that is answered are there, whatever zeros there were before. -/
theorem zeros_of_loose {stale datagram : Bytes} {place : Nat}
    (own : datagram[place]?.getD 0 = 0) (before : stale[place]?.getD 0 = 0) :
    remembered [stale, datagram] place = 0 := by
  rw [remembered_pair]
  cases found : datagram[place]? with
  | some byte => simpa [found] using own
  | none => simpa using before

/-- The reply to a datagram after some others. -/
def replyAfter (arrivals : List Arrival) (arrival : Arrival) : Option Bytes :=
  ((Server.after arrivals).handleRead arrival).1

/--
The reply to a datagram is the same after every history exactly when the datagram is settled.

A datagram that is not settled is answered with bytes that other clients have sent.
-/
theorem replyAfter_independent_iff (arrival : Arrival) :
    (∀ history other, replyAfter history arrival = replyAfter other arrival) ↔
      Settled arrival.datagram := by
  constructor
  · intro same
    by_contra loose
    simp only [Settled, not_or, not_and, not_exists, not_le, not_not] at loose
    obtain ⟨short, last, zeros⟩ := loose
    have zero : ∀ place, 4 ≤ place → place < 7 → arrival.datagram[place]?.getD 0 = 0 :=
      fun place least most => zeros place least most
    -- After one datagram the reply is made of two.
    have pair : ∀ stale, replyAfter [⟨stale, arrival.remoteEndpoint, arrival.uninit⟩] arrival =
        answer ((List.range 20).map (remembered [stale, arrival.datagram]))
          arrival.remoteEndpoint := fun stale => handleRead_after _ _
    have version : ∀ stale : Bytes, (∀ place, 4 ≤ place → place < 7 → stale[place]?.getD 0 = 0) →
        remembered [stale, arrival.datagram] 4 = 0 ∧ remembered [stale, arrival.datagram] 5 = 0 ∧
          remembered [stale, arrival.datagram] 6 = 0 := fun stale before =>
      ⟨zeros_of_loose (zero 4 (by decide) (by decide)) (before 4 (by decide) (by decide)),
        zeros_of_loose (zero 5 (by decide) (by decide)) (before 5 (by decide) (by decide)),
        zeros_of_loose (zero 6 (by decide) (by decide)) (before 6 (by decide) (by decide))⟩
    by_cases enough : 8 ≤ arrival.datagram.length
    · -- The version is 1, and the last byte that is repeated is another client's.
      have first : ∀ stale, remembered [stale, arrival.datagram] 7 = 1 := by
        intro stale
        rw [remembered_pair, last enough]
        rfl
      have repeated : ∀ byte : UInt8, (answer ((List.range 20).map (remembered
          [[0, 0, 0, 0, 0, 0, 0, 0, 0, 0, 0, 0, 0, 0, 0, 0, 0, 0, 0, byte], arrival.datagram]))
          arrival.remoteEndpoint).bind (fun reply => reply[19]?) = some byte := by
        intro byte
        rw [answer_remembered, if_pos (version _ (by
          intro place least most
          obtain rfl | rfl | rfl : place = 4 ∨ place = 5 ∨ place = 6 := by omega
          all_goals rfl)), if_pos (first _), Option.bind_some]
        have behind : remembered [[0, 0, 0, 0, 0, 0, 0, 0, 0, 0, 0, 0, 0, 0, 0, 0, 0, 0, 0, byte],
            arrival.datagram] 19 = byte := by
          rw [remembered_pair, List.getElem?_eq_none (by omega)]
          rfl
        simp [behind]
      have replies := same [⟨[0, 0, 0, 0, 0, 0, 0, 0, 0, 0, 0, 0, 0, 0, 0, 0, 0, 0, 0, 0],
          arrival.remoteEndpoint, arrival.uninit⟩]
        [⟨[0, 0, 0, 0, 0, 0, 0, 0, 0, 0, 0, 0, 0, 0, 0, 0, 0, 0, 0, 1],
          arrival.remoteEndpoint, arrival.uninit⟩]
      rw [pair, pair] at replies
      have bytes := congrArg (fun reply => reply.bind fun reply => reply[19]?) replies
      simp only [repeated, Option.some.injEq] at bytes
      exact absurd bytes (by decide)
    · -- The last byte of the version is another client's, and says whether there is a reply.
      have seventh : ∀ byte : UInt8,
          remembered [[0, 0, 0, 0, 0, 0, 0, byte], arrival.datagram] 7 = byte := by
        intro byte
        rw [remembered_pair, List.getElem?_eq_none (by omega)]
        rfl
      have before : ∀ byte : UInt8, ∀ place, 4 ≤ place → place < 7 →
          ([0, 0, 0, 0, 0, 0, 0, byte] : Bytes)[place]?.getD 0 = 0 := by
        intro byte place least most
        obtain rfl | rfl | rfl : place = 4 ∨ place = 5 ∨ place = 6 := by omega
        all_goals rfl
      have replies := same [⟨[0, 0, 0, 0, 0, 0, 0, 1], arrival.remoteEndpoint, arrival.uninit⟩]
        [⟨[0, 0, 0, 0, 0, 0, 0, 0], arrival.remoteEndpoint, arrival.uninit⟩]
      rw [pair, pair, answer_remembered, answer_remembered, if_pos (version _ (before 1)),
        if_pos (version _ (before 0)), seventh, seventh, if_pos rfl, if_neg (by decide),
        if_neg (by decide)] at replies
      cases replies
  · intro settled history other
    simp only [replyAfter, handleRead_after, datagrams, List.map_append, List.map_singleton]
    exact answer_of_settled settled _ _ _

end Recap.QoS
