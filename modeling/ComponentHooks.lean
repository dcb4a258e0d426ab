import ComponentHooks.Engine
import ComponentHooks.Sample.Session
import ComponentHooks.Sample.Settings
import ComponentHooks.Source.HookBlock
import ComponentHooks.Source.Lexeme
import ComponentHooks.Proofs.Hierarchy.Ancestry
import ComponentHooks.Proofs.Hierarchy.Walk
import ComponentHooks.Proofs.Hierarchy.Cycle
import ComponentHooks.Proofs.Extraction.Draft
import ComponentHooks.Proofs.Hierarchy.Preorder
import ComponentHooks.Proofs.Extraction.FirstOfName
import ComponentHooks.Proofs.Extraction.Reference
import ComponentHooks.Proofs.Extraction.Shadowing
import ComponentHooks.Proofs.Extraction.Flags
import ComponentHooks.Proofs.Hierarchy.Tour
import ComponentHooks.Proofs.Hierarchy.Course
import ComponentHooks.Proofs.Extraction.Narrative
import ComponentHooks.Proofs.Extraction.Termination
import ComponentHooks.Proofs.Extraction.Detection
import ComponentHooks.Proofs.Extraction.Interleaving
import ComponentHooks.Proofs.Extraction.Roll
import ComponentHooks.Proofs.Handles.History
import ComponentHooks.Proofs.Handles.Coherence
import ComponentHooks.Proofs.Extraction.Isolation
import ComponentHooks.Proofs.Invocation.ByName
import ComponentHooks.Proofs.Invocation.Parity
import ComponentHooks.Proofs.Cache.Chronicle
import ComponentHooks.Proofs.Cache.Transparency
import ComponentHooks.Proofs.Hierarchy.Line
import ComponentHooks.Proofs.Lineage.Hooks
import ComponentHooks.Proofs.Lineage.Reach
import ComponentHooks.Proofs.Handles.Acquaintance
import ComponentHooks.Proofs.Lineage.RunHooks
import ComponentHooks.Proofs.Handles.Growth
import ComponentHooks.Proofs.Handles.Uses
import ComponentHooks.Proofs.Extraction.Prefetch
import ComponentHooks.Proofs.Cache.Preload
import ComponentHooks.Proofs.Json.Grammar
import ComponentHooks.Proofs.Settings.Decimal
import ComponentHooks.Proofs.Settings.Groups
import ComponentHooks.Proofs.Settings.Agreement
import ComponentHooks.Proofs.Source.Markers
import ComponentHooks.Proofs.Source.WellFormed
import ComponentHooks.Proofs.Source.Remainder
import ComponentHooks.Proofs.Source.Clauses
import ComponentHooks.Proofs.Source.Gathering
import ComponentHooks.Proofs.Source.Members
import ComponentHooks.Proofs.Source.Acceptance
import ComponentHooks.Proofs.Lineage.Sources
import ComponentHooks.Proofs.Cache.Tally
import ComponentHooks.Proofs.Cache.Balance
import ComponentHooks.Proofs.Engine.Building
import ComponentHooks.Proofs.Json.Compact
import ComponentHooks.Proofs.Settings.RoundTrip
import ComponentHooks.Proofs.Lineage.Levels
import ComponentHooks.Proofs.Lineage.Coherence
import ComponentHooks.Proofs.Lineage.Dispatch
import ComponentHooks.Proofs.Lineage.RunOnce
import ComponentHooks.Proofs.Lineage.FieldLaws
import ComponentHooks.Proofs.Lineage.Derivation
import ComponentHooks.Proofs.Engine.IdleTime
import ComponentHooks.Proofs.Settings.Precedence
import ComponentHooks.Proofs.Source.Blocks
import ComponentHooks.Proofs.Lineage.Tables
