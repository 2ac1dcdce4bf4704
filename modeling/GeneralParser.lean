import GeneralParser.Grammar.Build
import GeneralParser.Parse
import GeneralParser.Proofs.Grammar.Derivation
import GeneralParser.Proofs.Grammar.Layout
import GeneralParser.Proofs.Grammar.Path
import GeneralParser.Proofs.Grammar.Summary
import GeneralParser.Proofs.Grammar.Validation
import GeneralParser.Proofs.Terminal
import GeneralParser.Proofs.Grammar.Rules
import GeneralParser.Proofs.Grammar.Lookahead
import GeneralParser.Proofs.Agenda
import GeneralParser.Proofs.CallGraph
import GeneralParser.Proofs.Engine.Fact
import GeneralParser.Proofs.Engine.Forest
import GeneralParser.Proofs.Engine.Step
import GeneralParser.Proofs.Engine.Closed
import GeneralParser.Proofs.Engine.Known
import GeneralParser.Proofs.Engine.Run
import GeneralParser.Proofs.Engine.Bound
import GeneralParser.Proofs.Engine.Meaning
import GeneralParser.Proofs.Engine.Outcome
import GeneralParser.Proofs.Recognition
import GeneralParser.Proofs.Exactness
import GeneralParser.Proofs.Renumbering
import GeneralParser.Proofs.Engine.Count
import GeneralParser.Proofs.Order
import GeneralParser.Proofs.DepthFirst
import GeneralParser.Proofs.Transparency
import GeneralParser.Proofs.Completions
import GeneralParser.Proofs.Grammar.Position
import GeneralParser.Proofs.Engine.Offer
import GeneralParser.Proofs.PartialResult
import GeneralParser.Proofs.Resources
import GeneralParser.Proofs.Prediction
import GeneralParser.Proofs.Grammar.Defined
import GeneralParser.Proofs.Grammar.Tree
import GeneralParser.Proofs.Trees
import GeneralParser.Proofs.Sharing
import GeneralParser.Proofs.Ambiguity
import GeneralParser.Proofs.Engine.Making
import GeneralParser.Proofs.Engine.Passing
import GeneralParser.Proofs.Wiring
import GeneralParser.Proofs.Shape
import GeneralParser.Proofs.Engine.Obstacle
import GeneralParser.Proofs.Furthest
import GeneralParser.Proofs.Lookups
import GeneralParser.Proofs.Truthfulness
import GeneralParser.Proofs.Foresight
import GeneralParser.Proofs.Progress
import GeneralParser.Proofs.Chaining
import GeneralParser.Proofs.Grammar.Fixpoint
import GeneralParser.Proofs.Grammar.Construction
import GeneralParser.Proofs.Grammar.References
import GeneralParser.Proofs.Grammar.Branching
import GeneralParser.Proofs.Grammar.Spelling
import GeneralParser.Proofs.Limit
import GeneralParser.Proofs.Queue
import GeneralParser.Proofs.Grammar.Viability
import GeneralParser.Proofs.Executions
import GeneralParser.Proofs.Text
import GeneralParser.Proofs.Matching
import GeneralParser.Proofs.Interning
import GeneralParser.Proofs.Unfilled
import GeneralParser.Proofs.Grammar.FirstUse
import GeneralParser.Proofs.Lines
import GeneralParser.Proofs.Callers
import GeneralParser.Proofs.Chains
