import Recap.Lib.OrderedMap

/-! The game server's clients, and the players that the game instance holds for them. -/

namespace Recap.RakNet

/-- A logged in user: the mail address it is filed under and its account id. -/
structure User where
  mail : String
  id : Int
deriving DecidableEq

/-- A player object of the game instance, by its place among all that were ever made. -/
abbrev PlayerPtr := Nat

/-- What a player update carries: three characters, nine crystals and the player's own data. -/
abbrev UpdateBits := BitVec 16

namespace UpdateBits

def characterBits : UpdateBits := 1 <<< 0

def characterMask : UpdateBits := characterBits <<< 0 ||| characterBits <<< 1 ||| characterBits <<< 2

def crystalBits : UpdateBits := 1 <<< 3

def crystalMask : UpdateBits :=
  crystalBits <<< 0 ||| crystalBits <<< 1 ||| crystalBits <<< 2 ||| crystalBits <<< 3 |||
    crystalBits <<< 4 ||| crystalBits <<< 5 ||| crystalBits <<< 6 ||| crystalBits <<< 7 |||
    crystalBits <<< 8

def playerBits : UpdateBits := 1 <<< 12

def mask : UpdateBits := characterMask ||| crystalMask ||| playerBits

end UpdateBits

/-- The fields of the player's own data. -/
inductive PlayerDataBits where
  | dataSetup | currentDeckIndex | queuedDeckIndex | characterData | playerIndex | team
  | playerOnlineId | status | statusProgress | currentCreatureId | energyPoints | isCharged | dna
  | crystalData | crystalBonuses | level | experience | chainProgression | lockCamera | lockOverdrive
  | lockCrystals | lockAbilityMin | lockDeckIndexMin | deckScore
deriving DecidableEq

/-- A player of the game instance. -/
structure Player where
  user : User
  playerIndex : UInt8
  dataBits : Finset PlayerDataBits
  updateBits : UpdateBits
deriving DecidableEq

namespace Player

/-- Marks fields of the player's data and parts of the update. -/
def mark (player : Player) (fields : List PlayerDataBits) (bits : UpdateBits) : Player :=
  { player with
    dataBits := player.dataBits ∪ fields.toFinset
    updateBits := player.updateBits ||| bits }

def resetUpdateBits (player : Player) : Player :=
  { player with dataBits := ∅, updateBits := 0 }

def needUpdate (player : Player) : Bool :=
  player.updateBits &&& UpdateBits.mask ≠ 0 ∨ player.dataBits ≠ ∅

/-- Setting the status marks the player's own data. -/
def setStatus (player : Player) : Player :=
  player.mark [.status, .statusProgress] UpdateBits.playerBits

/-- A catalyst marks its own slot, and the player's data because of the bonuses. -/
def setCatalyst (player : Player) (index : Nat) : Player :=
  if index < 9 then
    player.mark [.crystalBonuses] (UpdateBits.crystalBits <<< index ||| UpdateBits.playerBits)
  else player

/-- The constructor clears out the data of previous missions and sets the first status. -/
def new (user : User) (playerIndex : UInt8) : Player :=
  let player : Player := { user, playerIndex, dataBits := ∅, updateBits := 0 }
  (player.mark [.playerIndex, .chainProgression, .characterData, .crystalData, .crystalBonuses]
    0).setStatus.mark
      [.dataSetup, .team, .playerOnlineId, .lockCamera, .lockAbilityMin, .lockDeckIndexMin, .level,
        .dna, .experience] 0

@[simp] theorem mark_playerIndex (player : Player) (fields : List PlayerDataBits)
    (bits : UpdateBits) : (player.mark fields bits).playerIndex = player.playerIndex :=
  rfl

@[simp] theorem mark_user (player : Player) (fields : List PlayerDataBits) (bits : UpdateBits) :
    (player.mark fields bits).user = player.user :=
  rfl

@[simp] theorem setCatalyst_playerIndex (player : Player) (index : Nat) :
    (player.setCatalyst index).playerIndex = player.playerIndex := by
  unfold setCatalyst
  split <;> rfl

@[simp] theorem setCatalyst_user (player : Player) (index : Nat) :
    (player.setCatalyst index).user = player.user := by
  unfold setCatalyst
  split <;> rfl

@[simp] theorem new_playerIndex (user : User) (index : UInt8) : (new user index).playerIndex = index :=
  rfl

@[simp] theorem new_user (user : User) (index : UInt8) : (new user index).user = user :=
  rfl

end Player

/-- A connected client. -/
structure Client where
  id : UInt8
  user : Option User
  player : Option PlayerPtr
deriving DecidableEq

/-- The game server and the parts of the game instance and the user manager it works on. -/
structure Server (Address : Type) [LinearOrder Address] where
  clients : Std.TreeMap Address Client
  players : Std.TreeMap Int PlayerPtr
  allocated : List Player
  users : Std.TreeMap String Int

namespace Server

variable {Address : Type} [LinearOrder Address]

/-- A server that nobody has connected to. -/
def initial : Server Address where
  clients := {}
  players := {}
  allocated := []
  users := {}

/-- The first logged in user with an account id. -/
def getUserById (server : Server Address) (id : Int) : Option User :=
  (OrderedMap.first server.users fun _ account => account = id).map fun entry => ⟨entry.1, entry.2⟩

def addClient (server : Server Address) (address : Address) : Server Address :=
  if address ∈ server.clients then server
  else
    -- The map already holds the new entry when the id is read off its size.
    let size := server.clients.size + 1
    { server with
      clients := server.clients.insert address
        { id := UInt8.ofNat (size - 1), user := none, player := none } }

def removeClient (server : Server Address) (address : Address) : Server Address :=
  { server with clients := server.clients.erase address }

/-- The client that sends from an address. -/
def getClient (server : Server Address) (address : Address) : Option Client :=
  server.clients[address]?

/-- The first client of an id. -/
def getClientById (server : Server Address) (id : UInt8) : Option (Address × Client) :=
  OrderedMap.first server.clients fun _ client => client.id = id

/-- The slot of a player object. -/
def indexOf (server : Server Address) (player : PlayerPtr) : Option UInt8 :=
  server.allocated[player]?.map Player.playerIndex

/-- The first player of the instance in a slot. -/
def getPlayerByIndex (server : Server Address) (index : UInt8) : Option PlayerPtr :=
  (OrderedMap.first server.players fun _ player => server.indexOf player = some index).map Prod.snd

/-- A player already in the instance is returned as it is. -/
def addPlayer (server : Server Address) (user : User) (index : UInt8) : PlayerPtr × Server Address :=
  match server.players[user.id]? with
  | some player => (player, server)
  | none =>
    (server.allocated.length,
      { server with
        players := server.players.insert user.id server.allocated.length
        allocated := server.allocated ++ [Player.new user index] })

def removePlayer (server : Server Address) (id : Int) : Server Address :=
  { server with players := server.players.erase id }

/-- A change to a player object, which whoever points to it sees. -/
def updatePlayer (server : Server Address) (player : PlayerPtr) (change : Player → Player) :
    Server Address :=
  { server with allocated := server.allocated.modify player change }

/-- Binds a client to a user, whose player in the instance is made anew. -/
def setUser (server : Server Address) (address : Address) (client : Client) (user : Option User) :
    Server Address :=
  match user with
  | none => server
  | some user =>
    let (player, server) := (server.removePlayer user.id).addPlayer user client.id
    { server with
      clients := server.clients.insert address
        { client with user := some user, player := some player } }

/-- The crystals that a player is given when it says hello. -/
def setCatalysts (server : Server Address) (player : PlayerPtr) : Server Address :=
  (List.range 8).foldl
    (fun server slot => server.updatePlayer player fun player => player.setCatalyst slot) server

def onHelloPlayerRequest (server : Server Address) (address : Address) (blazeId : BitVec 64) :
    Server Address :=
  match server.getClient address with
  | none => server
  | some client =>
    let server := server.setUser address client (server.getUserById blazeId.toInt)
    match (server.getClient address).bind Client.player with
    | none => server
    | some player => server.setCatalysts player

/-- What happens to the server, of which only the first three come over the game connection. -/
inductive Input (Address : Type) where
  | connect (address : Address)
  | disconnect (address : Address)
  | helloPlayer (address : Address) (blazeId : BitVec 64)
  | login (mail : String) (id : Int)
  | logout (mail : String)

def step (server : Server Address) : Input Address → Server Address
  | .connect address => server.addClient address
  | .disconnect address => server.removeClient address
  | .helloPlayer address blazeId => server.onHelloPlayerRequest address blazeId
  | .login mail id => { server with users := server.users.insertIfNew mail id }
  | .logout mail => { server with users := server.users.erase mail }

end Server
end Recap.RakNet
