import SlotTable.Bytes
import SlotTable.Fault
import SlotTable.Hash.Fnv1a
import SlotTable.Hash.Scheme
import SlotTable.Hash.Sip13
import SlotTable.Hash.Xxh3
import SlotTable.Home
import SlotTable.Key.Binary64
import SlotTable.Key.Caseless
import SlotTable.Key.Feed
import SlotTable.Key.Integer
import SlotTable.Key.MatchRule
import SlotTable.Key.Numbered
import SlotTable.Key.Placeholder
import SlotTable.Landing
import SlotTable.Log.Event
import SlotTable.Log.Filter
import SlotTable.Log.Level
import SlotTable.Log.Logged
import SlotTable.Log.Setup
import SlotTable.Proofs.Client.Basic
import SlotTable.Proofs.Client.Run
import SlotTable.Proofs.Guarantees.Balance
import SlotTable.Proofs.Guarantees.EraseDamage
import SlotTable.Proofs.Guarantees.Forgetting
import SlotTable.Proofs.Guarantees.HashState
import SlotTable.Proofs.Guarantees.InBounds
import SlotTable.Proofs.Guarantees.InsertEffect
import SlotTable.Proofs.Guarantees.Interchange
import SlotTable.Proofs.Guarantees.LeakedSlots
import SlotTable.Proofs.Guarantees.Lockstep
import SlotTable.Proofs.Guarantees.LogLevels
import SlotTable.Proofs.Guarantees.LogReplay
import SlotTable.Proofs.Guarantees.Lookups
import SlotTable.Proofs.Guarantees.LowBits
import SlotTable.Proofs.Guarantees.NewestCopy
import SlotTable.Proofs.Guarantees.OccupiedSlots
import SlotTable.Proofs.Guarantees.OneShotHash
import SlotTable.Proofs.Guarantees.ParallelValues
import SlotTable.Proofs.Guarantees.Rebuild
import SlotTable.Proofs.Guarantees.Refusals
import SlotTable.Proofs.Guarantees.SetRefinement
import SlotTable.Proofs.Guarantees.SlotAccounts
import SlotTable.Proofs.Guarantees.Spread
import SlotTable.Proofs.Guarantees.TotalCost
import SlotTable.Proofs.Guarantees.Turned
import SlotTable.Proofs.Guarantees.UndoRedo
import SlotTable.Proofs.Guarantees.WalkOutcome
import SlotTable.Proofs.Hash.Fnv1a
import SlotTable.Proofs.Home.Consecutive
import SlotTable.Proofs.Home.Mixing
import SlotTable.Proofs.Key.Feed
import SlotTable.Proofs.Log.Deciding
import SlotTable.Proofs.Log.Replay
import SlotTable.Proofs.Log.Text
import SlotTable.Proofs.Log.Uniform
import SlotTable.Proofs.Log.Written
import SlotTable.Proofs.Result
import SlotTable.Proofs.Rules.Basic
import SlotTable.Proofs.Rules.Classes
import SlotTable.Proofs.Rules.Entries
import SlotTable.Proofs.Rules.Gather
import SlotTable.Proofs.Rules.Irreflexive
import SlotTable.Proofs.Rules.Landing
import SlotTable.Proofs.Rules.Lawful
import SlotTable.Proofs.Rules.Run
import SlotTable.Proofs.Rules.Steps
import SlotTable.Proofs.Rules.Turn
import SlotTable.Proofs.Storage.Contents
import SlotTable.Proofs.Storage.Script
import SlotTable.Proofs.Storage.Tidy
import SlotTable.Proofs.Table.Core
import SlotTable.Proofs.Table.Kinds
import SlotTable.Proofs.Table.Linear
import SlotTable.Proofs.Table.Rebuild
import SlotTable.Proofs.Table.Ruled
import SlotTable.Proofs.Table.Trace
import SlotTable.Proofs.Table.Trail
import SlotTable.Proofs.Table.Transcript
import SlotTable.Proofs.Table.Wraps
import SlotTable.Proofs.Walk.Asked
import SlotTable.Proofs.Walk.Distance
import SlotTable.Proofs.Walk.Stop
import SlotTable.Storage.Access
import SlotTable.Storage.Basic
import SlotTable.Storage.Flagged
import SlotTable.Storage.Lawful
import SlotTable.Storage.Optional
import SlotTable.Table.Debug
import SlotTable.Table.Dynamic
import SlotTable.Table.Fixed
import SlotTable.Table.Index
import SlotTable.Table.Linear
import SlotTable.Table.Operation
import SlotTable.Table.Session
import SlotTable.Text.Blank
import SlotTable.Text.CodePoints
import SlotTable.Text.Debug
import SlotTable.Text.Hex
import SlotTable.Text.Quoted
import SlotTable.Text.Shortest
import SlotTable.Walk
