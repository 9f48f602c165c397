import Highlight.Highlighting
import Highlight.Grammar.Fragment
import Highlight.Grammar.Script
import Highlight.Json.Printer
import Highlight.Proofs.Regex.Extent
import Highlight.Proofs.Scan.Attempts
import Highlight.Proofs.Text.Slices
import Highlight.Proofs.Arena.Rules
import Highlight.Proofs.Scan.Rounds
import Highlight.Proofs.Token.Opened
import Highlight.Proofs.Arena.Compiled
import Highlight.Proofs.Scan.Telling
import Highlight.Proofs.Scan.OpenScopes
import Highlight.Proofs.Arena.Delimiters
import Highlight.Proofs.Scan.KeptText
import Highlight.Proofs.Highlighting.Delegates
import Highlight.Proofs.Highlighting.KeptText
import Highlight.Proofs.Highlighting.Asking
import Highlight.Proofs.Highlighting.Delegation
import Highlight.Proofs.Highlighting.SafeMode
import Highlight.Proofs.Pattern.Pieces
import Highlight.Proofs.Regex.Brackets
import Highlight.Proofs.Regex.Groups
import Highlight.Proofs.Registry.Built
import Highlight.Proofs.Arena.Memo
import Highlight.Proofs.Arena.Links
import Highlight.Proofs.Arena.Terminators
import Highlight.Proofs.Scan.OpenModes
import Highlight.Proofs.Arena.Names
import Highlight.Proofs.Arena.Decoded
import Highlight.Proofs.Arena.Sharing
import Highlight.Proofs.Token.Leaves
import Highlight.Proofs.Scan.PlacedText
import Highlight.Proofs.Highlighting.PlacedText
import Highlight.Proofs.Regex.Carried
import Highlight.Proofs.Regex.Grammar
import Highlight.Proofs.Pattern.Merged
import Highlight.Proofs.Arena.WellFormed
import Highlight.Proofs.Scan.Guard
import Highlight.Proofs.Scan.Bounds
import Highlight.Proofs.Arena.Hits
import Highlight.Proofs.Arena.Trimmed
import Highlight.Proofs.Highlighting.Rejections
import Highlight.Proofs.Arena.Ordered
import Highlight.Proofs.Token.Guises
import Highlight.Proofs.Scan.Leeway
import Highlight.Proofs.Scan.Likeness
import Highlight.Proofs.Highlighting.Strictness
import Highlight.Proofs.Highlighting.Likeness
import Highlight.Proofs.Highlighting.Aliases
import Highlight.Proofs.Keyword.Rescored
import Highlight.Proofs.Arena.Rescored
import Highlight.Proofs.Arena.Lockstep
import Highlight.Proofs.Highlighting.Scores
import Highlight.Proofs.Text.LetterCase
import Highlight.Proofs.Regex.Caseless
import Highlight.Proofs.Arena.Folded
import Highlight.Proofs.Highlighting.LetterCase
import Highlight.Proofs.Text.Lowered
import Highlight.Proofs.Registry.Changes
import Highlight.Proofs.Highlighting.Detection
import Highlight.Proofs.Token.Labels
import Highlight.Proofs.Token.Markup
import Highlight.Proofs.Scan.ToldEvents
import Highlight.Proofs.Highlighting.Markup
import Highlight.Proofs.Arena.Offsets
import Highlight.Proofs.Arena.Joined
import Highlight.Proofs.Arena.Ends
import Highlight.Proofs.Scan.OpenEnds
import Highlight.Proofs.Scan.EndHooks
import Highlight.Proofs.Pattern.Renumbered
import Highlight.Proofs.Pattern.Sequenced
import Highlight.Proofs.Arena.Parts
import Highlight.Proofs.Scan.Steps
import Highlight.Proofs.Scan.Retold
import Highlight.Proofs.Highlighting.Retold
import Highlight.Proofs.Scan.ToldEnds
import Highlight.Proofs.Highlighting.ToldEnds
import Highlight.Proofs.Arena.LeadIn
import Highlight.Proofs.Scan.BeforeMatch
import Highlight.Proofs.Scan.Keywords
import Highlight.Proofs.Scan.Deeds
import Highlight.Proofs.Scan.Ledger
import Highlight.Proofs.Highlighting.Ledger
import Highlight.Proofs.Scan.HandedText
import Highlight.Proofs.Highlighting.HandedText
import Highlight.Proofs.Scan.Blocks
import Highlight.Proofs.Highlighting.Blocks
import Highlight.Proofs.Dictionaries
import Highlight.Proofs.Registry.Order
import Highlight.Proofs.Highlighting.Candidates
import Highlight.Proofs.Highlighting.Answers
import Highlight.Proofs.Highlighting.Refused
import Highlight.Proofs.Scan.HookCalls
import Highlight.Proofs.Scan.HookData
import Highlight.Proofs.Keyword.Declared
import Highlight.Proofs.Highlighting.Vocabulary
import Highlight.Proofs.Arena.Nesting
import Highlight.Proofs.Arena.Tails
import Highlight.Proofs.Token.Canonical
import Highlight.Proofs.Text.Lines
import Highlight.Proofs.Text.Context
import Highlight.Proofs.Highlighting.Illegal
import Highlight.Proofs.Rendering
import Highlight.Proofs.Pattern.Rewriting
import Highlight.Proofs.Pattern.Literal
