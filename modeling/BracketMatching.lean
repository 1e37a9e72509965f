import BracketMatching.Match
import BracketMatching.Spotlight
import BracketMatching.Proofs.BalancedWord
import BracketMatching.Proofs.Constructs
import BracketMatching.Proofs.GlanceAgreement
import BracketMatching.Proofs.Indifference
import BracketMatching.Proofs.LineCrossing
import BracketMatching.Proofs.LineEndings
import BracketMatching.Proofs.Locality
import BracketMatching.Proofs.MirroredGlances
import BracketMatching.Proofs.SameLine
import BracketMatching.Proofs.SpotlightHistory
import BracketMatching.Proofs.SpotlightStyle
import BracketMatching.Proofs.Symmetry
import BracketMatching.Proofs.TableFaults
import BracketMatching.Proofs.TableLookup
import BracketMatching.Proofs.WideningSchedule
import BracketMatching.Proofs.WindowCounts
