import Recap.Core.TdfInteger
import Recap.Core.DataBufferReuse
import Recap.Core.DataBufferAppend
import Recap.Lib.Window
import Recap.Game.RefPackStream
import Recap.Lib.Outcome
import Recap.Blaze.ParserTree
import Recap.Blaze.ParserCongruence
import Recap.Blaze.Termination
import Recap.Game.AttributesSync
import Recap.Game.AttributesHistory
import Recap.Game.Cooldown
import Recap.Game.Deck
import Recap.Game.Effects
import Recap.Game.Triggers
import Recap.Core.SchedulerRuns
import Recap.Core.SchedulerOrder
import Recap.RakNet.Server
import Recap.RakNet.Binding
import Recap.RakNet.ClientIds
import Recap.RakNet.LabsSync
import Recap.Game.Visibility
import Recap.RakNet.NullSafety
import Recap.RakNet.GameStates
import Recap.RakNet.ActionDispatch
import Recap.Game.AssetReading
import Recap.Game.AssetAddressing
import Recap.Game.AssetIsolation
import Recap.Lib.Acyclic
import Recap.Game.AssetTermination
import Recap.Lib.BitStream
import Recap.RakNet.Reflection
import Recap.RakNet.Integers
import Recap.RakNet.Objectives
import Recap.Game.RefPackSafety
import Recap.Blaze.StubLists
import Recap.Blaze.Counts
import Recap.Blaze.Texts
import Recap.Blaze.Requests
import Recap.Blaze.Structures
import Recap.Blaze.CreateGame
import Recap.Blaze.Framing
import Recap.Blaze.Receiving
import Recap.Blaze.Allocation
import Recap.SporeNet.Account
import Recap.SporeNet.Upgrades
import Recap.SporeNet.RoomMembership
import Recap.SporeNet.RoomIdentity
import Recap.SporeNet.SquadOwnership
import Recap.SporeNet.UserRequests
import Recap.SporeNet.Part
import Recap.SporeNet.Registration
import Recap.SporeNet.UserManager
import Recap.SporeNet.Persistence
import Recap.Blaze.Authentication
import Recap.Lib.Paths
import Recap.HTTP.Containment
import Recap.Lib.Totals
import Recap.Game.Interactables
import Recap.Game.LuaActions
import Recap.Game.LuaPool
import Recap.Game.LuaThreads
import Recap.Game.Octree
import Recap.Game.Colliding
import Recap.Game.Collision
import Recap.Game.OctreeShape
import Recap.Game.OctreeQuery
import Recap.Game.OctreeBuild
import Recap.Game.OctreeInsert
import Recap.Game.OctreeHolding
import Recap.Game.OctreeUpdate
import Recap.Game.OctreeRuns
import Recap.Game.OctreeAnswers
import Recap.Game.OctreeReach
import Recap.Lib.Slots
import Recap.Game.CatalystConservation
import Recap.Game.Orphans
import Recap.Game.ObjectManager
import Recap.Lib.Decoding
import Recap.Game.PackageIndex
import Recap.Game.NameRegistry
import Recap.Game.Experience
import Recap.Blaze.LabelCodec
import Recap.SporeNet.CreatureIds
import Recap.Game.AttributesDump
import Recap.SporeNet.RoomRequests
import Recap.SporeNet.SignUps
import Recap.SporeNet.PartListing
import Recap.Lib.Cutting
import Recap.Core.Strings
import Recap.HTTP.Cookies
import Recap.HTTP.Query
import Recap.HTTP.MultipartForms
import Recap.Game.PackageLookup
import Recap.HTTP.Splitting
import Recap.HTTP.Decoding
import Recap.Core.ViewLocality
import Recap.Lib.Latch
import Recap.Game.Package
import Recap.Game.PackageStream
import Recap.Game.PackageLayout
import Recap.Core.BigEndian
import Recap.QoS.Server
import Recap.QoS.Replies
import Recap.Core.SchedulerPlaces
import Recap.Game.LuaEvents
import Recap.Game.LuaEventsOrder
import Recap.Game.AI
import Recap.Game.AIRuns
import Recap.Game.CatalystBonuses
import Recap.Lib.Tracked
import Recap.Game.ObjectData
import Recap.Game.ObjectMirror
import Recap.SporeNet.CreatureTemplates
import Recap.SporeNet.TemplateJson
import Recap.SporeNet.UserStore
import Recap.Game.Levels
import Recap.Game.LevelRuns
import Recap.Game.TriggerSweep
