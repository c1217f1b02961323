import ScratchScript.Text.Basic
import ScratchScript.Text.Lowercase
import ScratchScript.Text.WordChar
import ScratchScript.Form
import ScratchScript.Source
import ScratchScript.Vocabulary.Classify
import ScratchScript.Json.Text
import ScratchScript.Condition.Reader
import ScratchScript.Script
import ScratchScript.Digest
import ScratchScript.Compiled
import ScratchScript.Project.Archive
import ScratchScript.Command.World
import ScratchScript.Main
import ScratchScript.Proofs.Reading
import ScratchScript.Proofs.Graph
import ScratchScript.Proofs.Program
import ScratchScript.Proofs.Feeding
import ScratchScript.Proofs.Repair
import ScratchScript.Proofs.Balance
import ScratchScript.Proofs.FreshIds
import ScratchScript.Proofs.Placement
import ScratchScript.Proofs.Linked
import ScratchScript.Proofs.Preorder
import ScratchScript.Proofs.ReadBack
import ScratchScript.Proofs.Nesting
import ScratchScript.Proofs.Typing
import ScratchScript.Proofs.Forms
import ScratchScript.Proofs.Overlap
import ScratchScript.Proofs.Brackets
import ScratchScript.Proofs.Grouping
import ScratchScript.Proofs.Printing
import ScratchScript.Proofs.BlockMap
import ScratchScript.Proofs.Renaming
import ScratchScript.Proofs.Accounting
import ScratchScript.Proofs.Cleanup
import ScratchScript.Proofs.Mirroring
import ScratchScript.Proofs.Canvas
import ScratchScript.Proofs.CaseBlind
import ScratchScript.Proofs.Stored
import ScratchScript.Proofs.Integrity
import ScratchScript.Proofs.Wiring
import ScratchScript.Proofs.Growth
import ScratchScript.Proofs.Templates
import ScratchScript.Proofs.Phrasebook
import ScratchScript.Proofs.Messages
import ScratchScript.Proofs.Keywords
import ScratchScript.Proofs.Entries
import ScratchScript.Proofs.Row
import ScratchScript.Proofs.Dangling
import ScratchScript.Proofs.Attachment
import ScratchScript.Proofs.Pairing
import ScratchScript.Proofs.Operands
import ScratchScript.Proofs.Descent
import ScratchScript.Proofs.Stopping
import ScratchScript.Proofs.Footprint
