import CharacterSheet.Content.Document
import CharacterSheet.Delta.Canonical
import CharacterSheet.Logging
import CharacterSheet.Main
import CharacterSheet.Proofs.Overlay.Carried
import CharacterSheet.Proofs.Overlay.Settling
import CharacterSheet.Proofs.Session.Activity
import CharacterSheet.Proofs.Session.Recompute
import CharacterSheet.Proofs.State.GateTotals
import CharacterSheet.Proofs.State.Laying
import CharacterSheet.Proofs.Overlay.ClosedForm
import CharacterSheet.Proofs.Session.Pass
import CharacterSheet.Proofs.Session.Interruption
import CharacterSheet.Proofs.Session.InterruptedPass
import CharacterSheet.Proofs.Session.Refusal
import CharacterSheet.Proofs.Session.Reentrancy
import CharacterSheet.Proofs.Table
import CharacterSheet.Proofs.Delta.Traits
import CharacterSheet.Proofs.Delta.Normal
import CharacterSheet.Proofs.Delta.Rooted
import CharacterSheet.Proofs.Delta.Merge
import CharacterSheet.Proofs.Delta.TraitOrder
import CharacterSheet.Proofs.Delta.Order
import CharacterSheet.Proofs.Delta.Canonical
import CharacterSheet.Proofs.DataCode.Shape
import CharacterSheet.Proofs.DataCode.Grammar
import CharacterSheet.Proofs.DataCode.Joining
import CharacterSheet.Proofs.Delta.Entry
import CharacterSheet.Proofs.DataCode.FailSoft
import CharacterSheet.Proofs.DataCode.Checking
import CharacterSheet.Proofs.State.Gathering
import CharacterSheet.Proofs.State.Action
import CharacterSheet.Proofs.Overlay.Training
import CharacterSheet.Proofs.Overlay.Reporting
import CharacterSheet.Proofs.Overlay.Isolation
import CharacterSheet.Proofs.Overlay.Completion
import CharacterSheet.Proofs.Session.Isolation
import CharacterSheet.Proofs.State.Order
import CharacterSheet.Proofs.State.Soundness
import CharacterSheet.Proofs.Overlay.Consistency
import CharacterSheet.Proofs.Overlay.Order
import CharacterSheet.Proofs.Build
import CharacterSheet.Proofs.Content.Checked
import CharacterSheet.Proofs.Session.Reachable
import CharacterSheet.Proofs.Overlay.Currents
import CharacterSheet.Proofs.Session.Clamping
import CharacterSheet.Proofs.Session.Conditions
import CharacterSheet.Proofs.Overlay.HandedOn
import CharacterSheet.Proofs.Session.Keeping
import CharacterSheet.Proofs.Session.Raising
import CharacterSheet.Proofs.Session.HandedOn
import CharacterSheet.Proofs.Session.FailedPass
import CharacterSheet.Proofs.Session.Queue
import CharacterSheet.Proofs.DataCode.Gating
import CharacterSheet.Proofs.Overlay.Recoding
import CharacterSheet.Proofs.Session.Gating
import CharacterSheet.Proofs.Session.Order
import CharacterSheet.Proofs.Build.Isolation
import CharacterSheet.Proofs.Build.Order
import CharacterSheet.Proofs.Build.Carrying
import CharacterSheet.Proofs.Session.Rebuilding
import CharacterSheet.Proofs.Session.Rest
import CharacterSheet.Proofs.Overdraft
import CharacterSheet.Proofs.Session.Overdraft
import CharacterSheet.Proofs.State.Conservation
import CharacterSheet.Proofs.Rounding
import CharacterSheet.Proofs.Threshold
import CharacterSheet.Proofs.Overlay.Conditions
import CharacterSheet.Proofs.Overlay.Injuries
import CharacterSheet.Proofs.Session.Injuries
import CharacterSheet.Proofs.Nearest
import CharacterSheet.Proofs.Bands
import CharacterSheet.Proofs.Content.Authored
import CharacterSheet.Proofs.Content.Resolving
import CharacterSheet.Proofs.Content.Assembly
import CharacterSheet.Proofs.Folder
import CharacterSheet.Proofs.Content.FirstWins
import CharacterSheet.Proofs.Content.Directory
import CharacterSheet.Proofs.Content.Typed
import CharacterSheet.Proofs.Content.Unreadable
import CharacterSheet.Proofs.Delta.TraitFold
import CharacterSheet.Proofs.Delta.Writable
import CharacterSheet.Proofs.Delta.UpToOrder
import CharacterSheet.Proofs.DataCode.Nesting
import CharacterSheet.Proofs.DataCode.Tidying
