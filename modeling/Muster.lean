import Muster.App
import Muster.App.Commands
import Muster.Config.File
import Muster.Keychain
import Muster.Login.Callbacks
import Muster.Proofs.Authenticity
import Muster.Proofs.AuthorizeAddress
import Muster.Proofs.Belief
import Muster.Proofs.CallbackSafety
import Muster.Proofs.Collation
import Muster.Proofs.ColorNotation
import Muster.Proofs.ColorSpelling
import Muster.Proofs.Completion
import Muster.Proofs.Deletion
import Muster.Proofs.Exchange
import Muster.Proofs.Forgetting
import Muster.Proofs.FormText
import Muster.Proofs.Integrity
import Muster.Proofs.Interleaving
import Muster.Proofs.JsonRecords
import Muster.Proofs.JsonText
import Muster.Proofs.Keeps
import Muster.Proofs.KeyRotation
import Muster.Proofs.Labels
import Muster.Proofs.LetterCase
import Muster.Proofs.LineGrammar
import Muster.Proofs.ListReading
import Muster.Proofs.ListWriting
import Muster.Proofs.Loading
import Muster.Proofs.NameCaching
import Muster.Proofs.Names
import Muster.Proofs.Numerals
import Muster.Proofs.Operation
import Muster.Proofs.Outage
import Muster.Proofs.Overrides
import Muster.Proofs.Overview
import Muster.Proofs.Pieces
import Muster.Proofs.Preferences
import Muster.Proofs.PublicMessage
import Muster.Proofs.Reachable
import Muster.Proofs.RefreshOrder
import Muster.Proofs.Registrations
import Muster.Proofs.Renaming
import Muster.Proofs.Renewal
import Muster.Proofs.Replacement
import Muster.Proofs.Respelling
import Muster.Proofs.RoleMatching
import Muster.Proofs.RoleOrder
import Muster.Proofs.RoleReading
import Muster.Proofs.RoleSaving
import Muster.Proofs.RoleWriting
import Muster.Proofs.Selection
import Muster.Proofs.SkillText
import Muster.Proofs.SnapshotWriting
import Muster.Proofs.Soundness
import Muster.Proofs.Stepwise
import Muster.Proofs.StoredColors
import Muster.Proofs.StoredText
import Muster.Proofs.Stowing
import Muster.Proofs.SubjectText
import Muster.Proofs.Succession
import Muster.Proofs.SyncOutcome
import Muster.Proofs.TagMeaning
import Muster.Proofs.TagSaving
import Muster.Proofs.TagWriting
import Muster.Proofs.TokenKeeping
import Muster.Proofs.TokenLife
import Muster.Proofs.Training
import Muster.Proofs.Transaction
import Muster.Proofs.UnknownNames
import Muster.Proofs.Visibility
import Muster.Sync.Strand
import Muster.Sync.Syncer
