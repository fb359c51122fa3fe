import Recap.RakNet.ServerLaws

/-! The player updates that the clients are sent before the update bits are reset. -/

namespace Recap.RakNet

open Recap.Runs

/-- What happens to the update bits of a player, and the player updates that are sent. -/
inductive LabsEvent (Address : Type) where
  | recorded (player : PlayerPtr) (bits : UpdateBits)
  | sent (address : Address) (player : PlayerPtr) (bits : UpdateBits)
  | reset (player : PlayerPtr) (bits : UpdateBits) (connected : List Address)

/-- A server together with what happened to its players' update bits, newest first. -/
structure LabsSession (Address : Type) [LinearOrder Address] where
  server : Server Address
  history : List (LabsEvent Address)

namespace LabsSession

variable {Address : Type} [LinearOrder Address]

def initial : LabsSession Address where
  server := Server.initial
  history := []

/-- The update bits of a player object. -/
def updateBits (session : LabsSession Address) (player : PlayerPtr) : UpdateBits :=
  (session.server.allocated[player]?.map Player.updateBits).getD 0

/-- A change of a player, which is recorded in its update bits. -/
def mark (session : LabsSession Address) (player : PlayerPtr) (fields : List PlayerDataBits)
    (bits : UpdateBits) : LabsSession Address where
  server := session.server.updatePlayer player fun record => record.mark fields bits
  history := .recorded player bits :: session.history

def setCatalyst (session : LabsSession Address) (player : PlayerPtr) (index : Nat) :
    LabsSession Address :=
  if index < 9 then
    session.mark player [.crystalBonuses] (UpdateBits.crystalBits <<< index ||| UpdateBits.playerBits)
  else session

def setStatus (session : LabsSession Address) (player : PlayerPtr) : LabsSession Address :=
  session.mark player [.status, .statusProgress] UpdateBits.playerBits

def resetUpdateBits (session : LabsSession Address) (player : PlayerPtr) : LabsSession Address where
  server := session.server.updatePlayer player Player.resetUpdateBits
  history := .reset player (session.updateBits player) session.server.clients.keys :: session.history

/-- The server's own send, to one client: a player without update bits is not sent. -/
def sendLabsPlayerUpdate (session : LabsSession Address) (address : Address) (player : PlayerPtr) :
    LabsSession Address :=
  if session.updateBits player = 0 then session
  else
    { session with history := .sent address player (session.updateBits player) :: session.history }

/-- The instance's send, to every client. -/
def broadcastLabsPlayerUpdate (session : LabsSession Address) (player : PlayerPtr) :
    LabsSession Address :=
  if (session.server.allocated[player]?.map Player.needUpdate).getD false then
    (session.server.clients.keys.foldl
      (fun session address => session.sendLabsPlayerUpdate address player) session).resetUpdateBits
        player
  else session

/-- A hello: the player is made anew, and its status and catalysts are recorded. -/
def onHelloPlayerRequest (session : LabsSession Address) (address : Address) (blazeId : BitVec 64) :
    LabsSession Address :=
  match session.server.getClient address with
  | none => session
  | some client =>
    let user := session.server.getUserById blazeId.toInt
    let session : LabsSession Address :=
      { server := session.server.setUser address client user
        history :=
          match user with
          | none => session.history
          | some _ =>
            .recorded session.server.allocated.length UpdateBits.playerBits :: session.history }
    match (session.server.getClient address).bind Client.player with
    | none => session
    | some player => (List.range 8).foldl (fun session slot => session.setCatalyst player slot) session

def onPlayerStatusUpdate (session : LabsSession Address) (address : Address) : LabsSession Address :=
  match (session.server.getClient address).bind Client.player with
  | none => session
  | some player =>
    ((session.setStatus player).sendLabsPlayerUpdate address player).resetUpdateBits player

/--
The queued client task for a player update, which goes to the first client.

Without any client the first one is past the end of the map, and the task is undefined.
-/
def labsPlayerUpdateTask (session : LabsSession Address) : Option (LabsSession Address) :=
  match session.server.clients.toList.head? with
  | none => none
  | some (address, client) =>
    match client.player with
    | none => some session
    | some player =>
      let session := session.mark player []
        (UpdateBits.characterMask ||| UpdateBits.crystalMask ||| UpdateBits.playerBits)
      some ((session.sendLabsPlayerUpdate address player).resetUpdateBits player)

/-- A tick of the instance sends every player of it. -/
def update (session : LabsSession Address) : LabsSession Address :=
  session.server.players.toList.foldl
    (fun session entry => session.broadcastLabsPlayerUpdate entry.2) session

/-- A swap of the character is recorded and sent at once. -/
def swapCharacter (session : LabsSession Address) (player : PlayerPtr) : LabsSession Address :=
  (session.mark player [.currentDeckIndex] UpdateBits.playerBits).broadcastLabsPlayerUpdate player

/-- What happens to the session: messages, queued tasks, ticks, and changes of players. -/
inductive Input (Address : Type) where
  | server (input : Server.Input Address)
  | change (player : PlayerPtr) (fields : List PlayerDataBits) (bits : UpdateBits)
  | playerStatusUpdate (address : Address)
  | labsPlayerUpdateTask
  | swapCharacter (player : PlayerPtr)
  | update

def step (session : LabsSession Address) : Input Address → Option (LabsSession Address)
  | .server (.helloPlayer address blazeId) => some (session.onHelloPlayerRequest address blazeId)
  | .server input => some { session with server := session.server.step input }
  | .change player fields bits => some (session.mark player fields bits)
  | .playerStatusUpdate address => some (session.onPlayerStatusUpdate address)
  | .labsPlayerUpdateTask => session.labsPlayerUpdateTask
  | .swapCharacter player => some (session.swapCharacter player)
  | .update => some session.update

/-! ### Delivery -/

/-- A client was sent a part of a player after that part was last recorded to have changed. -/
def SentSince (address : Address) (player : PlayerPtr) (bit : Nat) : List (LabsEvent Address) → Prop
  | [] => False
  | .sent receiver whose bits :: earlier =>
    receiver = address ∧ whose = player ∧ bits.getLsbD bit ∨ SentSince address player bit earlier
  | .recorded whose bits :: earlier =>
    ¬ (whose = player ∧ bits.getLsbD bit) ∧ SentSince address player bit earlier
  | .reset _ _ _ :: earlier => SentSince address player bit earlier

instance decidableSentSince (address : Address) (player : PlayerPtr) (bit : Nat) :
    (history : List (LabsEvent Address)) → Decidable (SentSince address player bit history)
  | [] => isFalse id
  | .sent receiver whose bits :: earlier =>
    have := decidableSentSince address player bit earlier
    inferInstanceAs (Decidable (receiver = address ∧ whose = player ∧ bits.getLsbD bit ∨ _))
  | .recorded whose bits :: earlier =>
    have := decidableSentSince address player bit earlier
    inferInstanceAs (Decidable (¬ (whose = player ∧ bits.getLsbD bit) ∧ _))
  | .reset _ _ _ :: earlier => decidableSentSince address player bit earlier

/-- Whenever update bits were reset, every client that was connected had been sent all of them. -/
def Delivered : List (LabsEvent Address) → Prop
  | [] => True
  | .reset player bits connected :: earlier =>
    (∀ address ∈ connected, ∀ bit, bits.getLsbD bit → SentSince address player bit earlier) ∧
      Delivered earlier
  | _ :: earlier => Delivered earlier

/--
A reply goes to everybody: the client that it goes to is the only one.

Only a status message of a client with a player and a queued player update are answered by a reply.
-/
def ReplyReachesAll (session : LabsSession Address) : Input Address → Prop
  | .playerStatusUpdate address =>
    ∀ client : Client, session.server.clients[address]? = some client → client.player.isSome →
      ∀ other ∈ session.server.clients, other = address
  | .labsPlayerUpdateTask =>
    ∀ address client, session.server.clients.toList.head? = some (address, client) →
      client.player.isSome → ∀ other ∈ session.server.clients, other = address
  | _ => True

/-! ### Marking, sending and resetting -/

/-- A change shows in the update bits of the player, which has to be a real one. -/
theorem updateBits_mark {session : LabsSession Address} {player : PlayerPtr}
    (real : player < session.server.allocated.length) (fields : List PlayerDataBits)
    (bits : UpdateBits) :
    (session.mark player fields bits).updateBits player = session.updateBits player ||| bits := by
  simp [updateBits, mark, Server.updatePlayer, real, Player.mark]

/-- Sending changes nothing but the history. -/
@[simp] theorem sendLabsPlayerUpdate_server (session : LabsSession Address) (address : Address)
    (player : PlayerPtr) :
    (session.sendLabsPlayerUpdate address player).server = session.server := by
  unfold sendLabsPlayerUpdate
  split <;> rfl

@[simp] theorem sendLabsPlayerUpdate_updateBits (session : LabsSession Address) (address : Address)
    (player whose : PlayerPtr) :
    (session.sendLabsPlayerUpdate address player).updateBits whose = session.updateBits whose := by
  simp [updateBits]

theorem sendLabsPlayerUpdate_history {session : LabsSession Address} {player : PlayerPtr}
    (pending : session.updateBits player ≠ 0) (address : Address) :
    (session.sendLabsPlayerUpdate address player).history =
      .sent address player (session.updateBits player) :: session.history := by
  unfold sendLabsPlayerUpdate
  rw [if_neg pending]

/--
A change that is answered by a reply to one client and a reset is delivered exactly when that client
is the only one.
-/
theorem reply_delivered {session : LabsSession Address} {player : PlayerPtr}
    (real : player < session.server.allocated.length) {bits : UpdateBits} {bit : Nat}
    (set_ : bits.getLsbD bit) (fields : List PlayerDataBits) (address : Address) :
    Delivered (((session.mark player fields bits).sendLabsPlayerUpdate address
        player).resetUpdateBits player).history ↔
      (∀ other ∈ session.server.clients, other = address) ∧ Delivered session.history := by
  have marked := updateBits_mark real fields bits
  -- The marked part is pending, so the reply is sent.
  have pendingBit : (session.updateBits player ||| bits).getLsbD bit := by
    rw [BitVec.getLsbD_or, set_, Bool.or_true]
  have pending : (session.mark player fields bits).updateBits player ≠ 0 := by
    rw [marked]
    intro empty
    rw [empty] at pendingBit
    simp at pendingBit
  have clients : (session.mark player fields bits).server.clients = session.server.clients := rfl
  have history : (session.mark player fields bits).history =
      .recorded player bits :: session.history := rfl
  simp only [resetUpdateBits, sendLabsPlayerUpdate_server, sendLabsPlayerUpdate_updateBits,
    sendLabsPlayerUpdate_history pending, clients, history, marked, Delivered, SentSince,
    Std.TreeMap.mem_keys]
  constructor
  · rintro ⟨everybody, before⟩
    refine ⟨fun other connected => ?_, before⟩
    rcases everybody other connected bit pendingBit with ⟨same, -⟩ | since
    · exact same.symm
    · exact absurd ⟨trivial, set_⟩ since.1
  · rintro ⟨alone, before⟩
    refine ⟨fun other connected place recorded => ?_, before⟩
    exact Or.inl ⟨(alone other connected).symm, trivial, recorded⟩

/-- The sends of a broadcast are put in front of the history, and nothing else happens. -/
theorem foldl_sendLabsPlayerUpdate {session : LabsSession Address} {player : PlayerPtr}
    (pending : session.updateBits player ≠ 0) (addresses : List Address) :
    addresses.foldl (fun session address => session.sendLabsPlayerUpdate address player) session =
      { session with
        history := (addresses.map fun address =>
          LabsEvent.sent address player (session.updateBits player)).reverse ++ session.history } := by
  induction addresses generalizing session with
  | nil => rfl
  | cons address rest ih =>
    have once : session.sendLabsPlayerUpdate address player =
        { session with
          history := .sent address player (session.updateBits player) :: session.history } := by
      unfold sendLabsPlayerUpdate
      rw [if_neg pending]
    have still : (session.sendLabsPlayerUpdate address player).updateBits player ≠ 0 := by
      simpa using pending
    rw [List.foldl_cons, ih still]
    simp [once, updateBits]

/-- A player without update bits is sent to nobody. -/
theorem foldl_sendLabsPlayerUpdate_of_empty {session : LabsSession Address} {player : PlayerPtr}
    (empty : session.updateBits player = 0) (addresses : List Address) :
    addresses.foldl (fun session address => session.sendLabsPlayerUpdate address player) session =
      session := by
  induction addresses with
  | nil => rfl
  | cons address rest ih =>
    have once : session.sendLabsPlayerUpdate address player = session := if_pos empty
    rw [List.foldl_cons, once, ih]

omit [LinearOrder Address] in
/-- A packet among sends alone has been sent since anything before them. -/
theorem sentSince_of_mem {address : Address} {player : PlayerPtr} {bits : UpdateBits} {bit : Nat}
    (set_ : bits.getLsbD bit) {addresses : List Address} (receives : address ∈ addresses)
    (earlier : List (LabsEvent Address)) :
    SentSince address player bit
      ((addresses.map fun address => LabsEvent.sent address player bits) ++ earlier) := by
  induction addresses with
  | nil => cases receives
  | cons first rest ih =>
    rcases List.mem_cons.mp receives with rfl | later
    · exact Or.inl ⟨rfl, rfl, set_⟩
    · exact Or.inr (ih later)

omit [LinearOrder Address] in
/-- Sends reset nothing. -/
theorem delivered_sends {player : PlayerPtr} {bits : UpdateBits} (addresses : List Address)
    (earlier : List (LabsEvent Address)) :
    Delivered ((addresses.map fun address => LabsEvent.sent address player bits) ++ earlier) ↔
      Delivered earlier := by
  induction addresses with
  | nil => exact Iff.rfl
  | cons first rest ih => exact ih

/-- A broadcast delivers whatever it resets. -/
theorem broadcast_delivered (session : LabsSession Address) (player : PlayerPtr) :
    Delivered (session.broadcastLabsPlayerUpdate player).history ↔ Delivered session.history := by
  unfold broadcastLabsPlayerUpdate
  split
  swap
  · exact Iff.rfl
  by_cases pending : session.updateBits player = 0
  · -- Nothing is sent, and no update bit is reset.
    rw [foldl_sendLabsPlayerUpdate_of_empty pending]
    simp only [resetUpdateBits, pending, Delivered]
    refine and_iff_right fun address _ bit set_ => ?_
    simp at set_
  · rw [foldl_sendLabsPlayerUpdate pending]
    simp only [resetUpdateBits, Delivered, ← List.map_reverse, delivered_sends]
    refine and_iff_right fun address connected bit set_ => ?_
    exact sentSince_of_mem set_ (List.mem_reverse.mpr connected) _

/-- A catalyst is recorded and nothing is reset. -/
theorem setCatalyst_delivered (session : LabsSession Address) (player : PlayerPtr) (index : Nat) :
    Delivered (session.setCatalyst player index).history ↔ Delivered session.history := by
  unfold setCatalyst
  split <;> exact Iff.rfl

theorem setCatalyst_server (session : LabsSession Address) (player : PlayerPtr) (index : Nat) :
    (session.setCatalyst player index).server =
      session.server.updatePlayer player fun record => record.setCatalyst index := by
  unfold setCatalyst Player.setCatalyst
  split
  · rfl
  · -- No catalyst, no change: the player is written back as it is.
    change session.server =
      { session.server with allocated := session.server.allocated.modify player id }
    rw [List.modify_id]

theorem foldl_setCatalyst_delivered (session : LabsSession Address) (player : PlayerPtr)
    (slots : List Nat) :
    Delivered (slots.foldl (fun session slot => session.setCatalyst player slot) session).history ↔
      Delivered session.history := by
  induction slots generalizing session with
  | nil => exact Iff.rfl
  | cons slot rest ih => exact (ih _).trans (session.setCatalyst_delivered player slot)

theorem foldl_setCatalyst_server (session : LabsSession Address) (player : PlayerPtr)
    (slots : List Nat) :
    (slots.foldl (fun session slot => session.setCatalyst player slot) session).server =
      slots.foldl (fun server slot => server.updatePlayer player fun record => record.setCatalyst slot)
        session.server := by
  induction slots generalizing session with
  | nil => rfl
  | cons slot rest ih =>
    rw [List.foldl_cons, List.foldl_cons, ih, setCatalyst_server]

/-- A hello does to the server what it does without the history. -/
theorem onHelloPlayerRequest_server (session : LabsSession Address) (address : Address)
    (blazeId : BitVec 64) :
    (session.onHelloPlayerRequest address blazeId).server =
      session.server.onHelloPlayerRequest address blazeId := by
  unfold onHelloPlayerRequest Server.onHelloPlayerRequest
  cases session.server.getClient address with
  | none => rfl
  | some client =>
    simp only
    cases ((session.server.setUser address client
        (session.server.getUserById blazeId.toInt)).getClient address).bind Client.player with
    | none => rfl
    | some player =>
      simp only
      rw [foldl_setCatalyst_server]
      rfl

/-- A hello resets no update bits. -/
theorem onHelloPlayerRequest_delivered (session : LabsSession Address) (address : Address)
    (blazeId : BitVec 64) :
    Delivered (session.onHelloPlayerRequest address blazeId).history ↔ Delivered session.history := by
  unfold onHelloPlayerRequest
  cases session.server.getClient address with
  | none => exact Iff.rfl
  | some client =>
    -- The new player's first status is recorded, if there is a new player.
    have recorded : Delivered
        (match session.server.getUserById blazeId.toInt with
          | none => session.history
          | some _ =>
            LabsEvent.recorded session.server.allocated.length UpdateBits.playerBits ::
              session.history) ↔ Delivered session.history := by
      split <;> exact Iff.rfl
    simp only
    split
    · exact recorded
    · exact (foldl_setCatalyst_delivered _ _ _).trans recorded

/-! ### Runs -/

theorem wellFormed_mark {session : LabsSession Address} (wellFormed : session.server.WellFormed)
    (player : PlayerPtr) (fields : List PlayerDataBits) (bits : UpdateBits) :
    (session.mark player fields bits).server.WellFormed := by
  refine wellFormed.of_owners rfl rfl ?_
  apply Server.map_updatePlayer
  exact fun _ => rfl

theorem wellFormed_resetUpdateBits {session : LabsSession Address}
    (wellFormed : session.server.WellFormed) (player : PlayerPtr) :
    (session.resetUpdateBits player).server.WellFormed := by
  refine wellFormed.of_owners rfl rfl ?_
  apply Server.map_updatePlayer
  exact fun _ => rfl

theorem wellFormed_broadcast {session : LabsSession Address} (wellFormed : session.server.WellFormed)
    (player : PlayerPtr) : (session.broadcastLabsPlayerUpdate player).server.WellFormed := by
  unfold broadcastLabsPlayerUpdate
  split
  · refine wellFormed_resetUpdateBits ?_ player
    by_cases pending : session.updateBits player = 0
    · rw [foldl_sendLabsPlayerUpdate_of_empty pending]
      exact wellFormed
    · rw [foldl_sendLabsPlayerUpdate pending]
      exact wellFormed
  · exact wellFormed

theorem wellFormed_reply {session : LabsSession Address} (wellFormed : session.server.WellFormed)
    (player : PlayerPtr) (fields : List PlayerDataBits) (bits : UpdateBits) (address : Address) :
    (((session.mark player fields bits).sendLabsPlayerUpdate address player).resetUpdateBits
      player).server.WellFormed := by
  refine wellFormed_resetUpdateBits ?_ player
  rw [sendLabsPlayerUpdate_server]
  exact wellFormed_mark wellFormed player fields bits

/-- Every step keeps the filing of the players. -/
theorem wellFormed_step {session next : LabsSession Address} {input : Input Address}
    (wellFormed : session.server.WellFormed) (taken : session.step input = some next) :
    next.server.WellFormed := by
  -- Besides the server's own inputs, a step marks, sends or resets, which moves no player.
  cases input with
  | server input =>
    cases input with
    | helloPlayer address blazeId =>
      cases taken
      rw [onHelloPlayerRequest_server]
      exact wellFormed.step (.helloPlayer address blazeId)
    | connect address => cases taken; exact wellFormed.step (.connect address)
    | disconnect address => cases taken; exact wellFormed.step (.disconnect address)
    | login mail id => cases taken; exact wellFormed.step (.login mail id)
    | logout mail => cases taken; exact wellFormed.step (.logout mail)
  | change player fields bits =>
    cases taken
    exact wellFormed_mark wellFormed player fields bits
  | playerStatusUpdate address =>
    cases taken
    unfold onPlayerStatusUpdate
    split
    · exact wellFormed
    · exact wellFormed_reply wellFormed _ _ _ _
  | labsPlayerUpdateTask =>
    simp only [step, labsPlayerUpdateTask] at taken
    split at taken
    · cases taken
    · split at taken
      · cases taken
        exact wellFormed
      · cases taken
        exact wellFormed_reply wellFormed _ _ _ _
  | swapCharacter player =>
    cases taken
    exact wellFormed_broadcast (wellFormed_mark wellFormed _ _ _) player
  | update =>
    cases taken
    unfold update
    induction session.server.players.toList generalizing session with
    | nil => exact wellFormed
    | cons entry rest ih => exact ih (wellFormed_broadcast wellFormed entry.2)

/-- A step delivers what it resets exactly when its reply, if it makes one, reaches everybody. -/
theorem delivered_step {session next : LabsSession Address} {input : Input Address}
    (wellFormed : session.server.WellFormed) (delivered : Delivered session.history)
    (taken : session.step input = some next) :
    Delivered next.history ↔ session.ReplyReachesAll input := by
  cases input with
  | server input =>
    refine iff_of_true ?_ trivial
    cases input with
    | helloPlayer address blazeId =>
      cases taken
      exact (session.onHelloPlayerRequest_delivered address blazeId).mpr delivered
    | connect address => cases taken; exact delivered
    | disconnect address => cases taken; exact delivered
    | login mail id => cases taken; exact delivered
    | logout mail => cases taken; exact delivered
  | change player fields bits =>
    cases taken
    exact iff_of_true delivered trivial
  | playerStatusUpdate address =>
    cases taken
    simp only [onPlayerStatusUpdate, Server.getClient, ReplyReachesAll]
    cases present : session.server.clients[address]? with
    | none => simpa using delivered
    | some client =>
      cases holds : client.player with
      | none => simpa [holds] using delivered
      | some player =>
        have real := wellFormed.held address client player present holds
        have playerBit : UpdateBits.playerBits.getLsbD 12 := by decide
        have reply := reply_delivered real playerBit [.status, .statusProgress] address
        simp only [Option.bind_some, holds, Option.some.injEq]
        refine reply.trans ?_
        simp [delivered, holds]
  | labsPlayerUpdateTask =>
    simp only [step, labsPlayerUpdateTask] at taken
    simp only [ReplyReachesAll]
    cases front : session.server.clients.toList.head? with
    | none => simp [front] at taken
    | some entry =>
      obtain ⟨address, client⟩ := entry
      simp only [front] at taken
      cases holds : client.player with
      | none =>
        simp only [holds] at taken
        cases taken
        simpa [holds] using delivered
      | some player =>
        simp only [holds] at taken
        cases taken
        have present : session.server.clients[address]? = some client :=
          Std.TreeMap.mem_toList_iff_getElem?_eq_some.mp (List.mem_of_head? front)
        have real := wellFormed.held address client player present holds
        have everyBit : (UpdateBits.characterMask ||| UpdateBits.crystalMask |||
            UpdateBits.playerBits).getLsbD 12 := by decide
        refine (reply_delivered real everyBit [] address).trans ?_
        simp [delivered, holds]
  | swapCharacter player =>
    cases taken
    refine iff_of_true ?_ trivial
    exact (broadcast_delivered _ player).mpr delivered
  | update =>
    cases taken
    refine iff_of_true ?_ trivial
    -- Each player of the instance is broadcast in its turn.
    unfold update
    clear wellFormed
    induction session.server.players.toList generalizing session with
    | nil => exact delivered
    | cons entry rest ih => exact ih ((broadcast_delivered session entry.2).mpr delivered)

/--
Throughout a run every change has been sent to all connected clients before it is reset, exactly
when no reply goes to one client while another is connected.
-/
theorem delivered_iff_replyReachesAll (inputs : List (Input Address)) :
    (∀ front, front <+: inputs → Delivered (final step (initial : LabsSession Address) front).history) ↔
      Along step ReplyReachesAll (initial : LabsSession Address) inputs := by
  symm
  have kept : ∀ (session : LabsSession Address) (input : Input Address) (next : LabsSession Address),
      session.server.WellFormed → Delivered session.history → session.step input = some next →
      next.server.WellFormed :=
    fun session input next wellFormed _ taken => wellFormed_step wellFormed taken
  have refused : ∀ (session : LabsSession Address) (input : Input Address),
      session.step input = none → session.ReplyReachesAll input := by
    -- Only the queued task without a client is refused, and then nobody is left out.
    intro session input refused
    cases input with
    | labsPlayerUpdateTask =>
      intro address client front
      simp only [step, labsPlayerUpdateTask, front] at refused
      split at refused <;> cases refused
    | server input => cases input <;> exact trivial
    | playerStatusUpdate address => cases refused
    | change player fields bits => exact trivial
    | swapCharacter player => exact trivial
    | update => exact trivial
  have agree : ∀ (session : LabsSession Address) (input : Input Address) (next : LabsSession Address),
      session.server.WellFormed → Delivered session.history → session.step input = some next →
      (Delivered next.history ↔ session.ReplyReachesAll input) :=
    fun session input next wellFormed delivered taken => delivered_step wellFormed delivered taken
  exact Along.iff_final kept refused agree inputs Server.wellFormed_initial trivial

/-- Of two clients, one sends its status, and the other one never hears of it. -/
theorem not_delivered :
    ¬ ∀ inputs : List (Input ℕ), Delivered (final step initial inputs).history := by
  intro always
  have delivered := always [.server (.login "a" 5), .server (.connect 10), .server (.connect 11),
    .server (.helloPlayer 10 5), .playerStatusUpdate 10]
  -- The newest event resets the player's data, and the client at 11 was sent nothing.
  obtain ⟨everybody, -⟩ := delivered
  exact absurd (everybody 11 (by decide) 12 (by decide)) (by decide)

end LabsSession
end Recap.RakNet
