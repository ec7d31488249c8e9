import Highlighter.Main
import Highlighter.Preview.Server
import Highlighter.Registry.Basic
import Highlighter.Proofs.Tiling
import Highlighter.Proofs.Machine.Progress
import Highlighter.Proofs.Lookback
import Highlighter.Proofs.WholeWord
import Highlighter.Proofs.History
import Highlighter.Proofs.ModeVocabulary
import Highlighter.Proofs.Latch
import Highlighter.Proofs.Enclosure
import Highlighter.Proofs.Region
import Highlighter.Proofs.Registry
import Highlighter.Proofs.Markup.Decoding
import Highlighter.Proofs.Preview.Isolation
import Highlighter.Proofs.LineBreak
import Highlighter.Proofs.Listing
import Highlighter.Proofs.Markup.Contents
import Highlighter.Proofs.Preview.Page
import Highlighter.Proofs.ReservedWord
import Highlighter.Proofs.CharacterClass
import Highlighter.Proofs.Uri
import Highlighter.Proofs.RuleOrder
import Highlighter.Proofs.ReservedStyle
import Highlighter.Proofs.Separator
import Highlighter.Proofs.Registry.Extension
import Highlighter.Proofs.CommandOption
import Highlighter.Proofs.Merging
import Highlighter.Proofs.LineEnd
import Highlighter.Proofs.Offset.Safety
import Highlighter.Proofs.Unstyled
import Highlighter.Proofs.Registry.Path
import Highlighter.Proofs.Operator
import Highlighter.Proofs.WordList
