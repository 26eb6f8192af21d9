import MessageFormat.Advice.Instructions
import MessageFormat.Advice.Review
import MessageFormat.Main
import MessageFormat.Pattern.Cursor
import MessageFormat.Proofs.Delivery
import MessageFormat.Proofs.Completing
import MessageFormat.Proofs.Nesting
import MessageFormat.Proofs.Bookkeeping
import MessageFormat.Proofs.SafeTexts
import MessageFormat.Proofs.Arguments
import MessageFormat.Proofs.Reporting
import MessageFormat.Proofs.Untranslated
import MessageFormat.Proofs.EscapedTexts
import MessageFormat.Proofs.Selecting
import MessageFormat.Proofs.Tiling
import MessageFormat.Proofs.DecodedTexts
import MessageFormat.Proofs.Stretches
import MessageFormat.Proofs.Styles
import MessageFormat.Proofs.Cutting
import MessageFormat.Proofs.Positions
import MessageFormat.Proofs.Faults
import MessageFormat.Proofs.Planning
import MessageFormat.Proofs.TranslatedBranches
import MessageFormat.Proofs.Offsets
import MessageFormat.Proofs.Segmenting
import MessageFormat.Proofs.Layering
import MessageFormat.Proofs.Occurrences
import MessageFormat.Proofs.Advising
