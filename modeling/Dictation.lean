import Dictation.Dispatch
import Dictation.Main
import Dictation.Proofs.Acceptance
import Dictation.Proofs.Artifacts
import Dictation.Proofs.Backups
import Dictation.Proofs.LastParagraph
import Dictation.Proofs.Leniency
import Dictation.Proofs.LetterCase
import Dictation.Proofs.Lines
import Dictation.Proofs.Locales
import Dictation.Proofs.LongestPhrase
import Dictation.Proofs.Marks
import Dictation.Proofs.Meaning
import Dictation.Proofs.NearestTrigger
import Dictation.Proofs.NormalTriggers
import Dictation.Proofs.Refusals
import Dictation.Proofs.Rejoining
import Dictation.Proofs.Rendering
import Dictation.Proofs.Session
import Dictation.Proofs.SpokenMarks
import Dictation.Proofs.TriggerOrder
import Dictation.Proofs.WordSpacing
import Dictation.Proofs.WordStack
import Dictation.Tool
