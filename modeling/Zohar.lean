import Zohar.Lib.MachineInt
import Zohar.Lib.OrdMap
import Zohar.Lib.Cmd
import Zohar.Lib.Run
import Zohar.Lib.Clock
import Zohar.Lib.Reader
import Zohar.Net.Wire
import Zohar.Net.Packets
import Zohar.Net.Phase
import Zohar.Net.Codec
import Zohar.Net.Handshake
import Zohar.Domain
import Zohar.Space
import Zohar.Db.Tables
import Zohar.Db.Queries
import Zohar.Db.Save
import Zohar.Db.Fence
import Zohar.Db.Lease
import Zohar.Db.Takeover
import Zohar.Persistence.Worker
import Zohar.Persistence.Order
import Zohar.Persistence.Replies
import Zohar.Persistence.Shutdown
import Zohar.Stats.Stat
import Zohar.Stats.Source
import Zohar.Stats.State
import Zohar.Stats.Api
import Zohar.Stats.Effects
import Zohar.Stats.Canonical
import Zohar.Stats.Sync
import Zohar.Stats.Rules
import Zohar.Stats.Leveling
import Zohar.Stats.Hydrate
import Zohar.Sim.Player
import Zohar.Sim.Relog
import Zohar.Replication.Events
import Zohar.Replication.Outbox
import Zohar.Replication.Delivery
import Zohar.Replication.Movement
import Zohar.Lib.SetMap
import Zohar.Replication.Graph
import Zohar.Replication.Edges
import Zohar.Replication.Visibility
import Zohar.Replication.Shown
import Zohar.Lib.MinHeap
import Zohar.Lib.UnstableSort
import Zohar.Spawn.Rules
import Zohar.Spawn.Schedule
import Zohar.Spawn.Cap
import Zohar.Sim.Life
import Zohar.Sim.Turns
import Zohar.Sim.Kills
import Zohar.Sim.Vitals
import Zohar.Sim.Coupling
import Zohar.Core.System
import Zohar.Core.Handoff
import Zohar.Core.Autosave
import Zohar.Core.Progress
import Zohar.Game.Coords
import Zohar.Game.Session
import Zohar.Game.Login
import Zohar.Game.Heartbeat
import Zohar.Game.Freshness
import Zohar.Sim.Ingress
import Zohar.Game.Ingame
import Zohar.Lib.Watch
import Zohar.Game.Drain
import Zohar.Game.Placement
import Zohar.Game.Endings
import Zohar.Lib.Staircase
import Zohar.Lib.GridAxis
import Zohar.Nav.Segment
import Zohar.Lib.GridRay
import Zohar.Nav.Walk
import Zohar.Nav.Clear
import Zohar.Net.Chat
import Zohar.Game.Chat
import Zohar.Game.TimeSync
import Zohar.Lib.Broadcast
import Zohar.Game.Shout
import Zohar.Lib.Index
import Zohar.Sim.Facts
import Zohar.Sim.Indices
import Zohar.Stats.ExpTable
import Zohar.Stats.Gains
import Zohar.Stats.Queues
import Zohar.Stats.Recovery
import Zohar.Stats.Passive
import Zohar.Stats.Stamina
import Zohar.Lib.Flood
import Zohar.Nav.Reach
import Zohar.Nav.Trace
import Zohar.Nav.Route
import Zohar.Nav.Clip
import Zohar.Lib.IntExpr
import Zohar.Stats.Formula
import Zohar.Stats.Overflow
import Zohar.Lib.Period
import Zohar.Sim.Ticker
import Zohar.Net.Mismatch
import Zohar.Net.Token
import Zohar.Stats.Growth
import Zohar.Sim.Acquire
import Zohar.Lib.Sole
import Zohar.Game.Destinations
import Zohar.Stats.Snapshot
import Zohar.Sim.StatTickers
import Zohar.Sim.StaminaTimer
import Zohar.Sim.Gait
import Zohar.Lib.Gather
import Zohar.Combat.Timing
import Zohar.Combat.Delay
import Zohar.Net.ChatFrame
import Zohar.Net.EntityKind
import Zohar.Net.FixedString
import Zohar.Game.Tokens
import Zohar.Portal.Motion
import Zohar.Portal.Entries
import Zohar.Portal.Edges
import Zohar.Db.Characters
import Zohar.Sim.CommandQueue
import Zohar.Spawn.Tickets
import Zohar.Lib.Munch
import Zohar.Content.Sql
import Zohar.Content.PrivateData
import Zohar.Lib.Spaced
import Zohar.Mob.Space
import Zohar.Mob.Brain
import Zohar.Mob.Think
import Zohar.Mob.Mind
import Zohar.Mob.Cadence
import Zohar.Mob.Packs
import Zohar.Mob.Ground
import Zohar.Mob.Placement
import Zohar.Mob.Chatter
import Zohar.Mob.Ambient
import Zohar.Lib.Txn
import Zohar.Content.Migrations
import Zohar.Lib.Reports
import Zohar.Content.Discovery
