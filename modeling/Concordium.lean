import Concordium.ContractReview
import Concordium.Delegation
import Concordium.Idle
import Concordium.Latch
import Concordium.Chunking
import Concordium.Replies
import Concordium.TrustRuns
import Concordium.AddressReview
import Concordium.KeyAnswers
import Concordium.PltStreaming
import Concordium.PublicInfo
import Concordium.CredentialUpdates
import Concordium.UpdateReviews
import Concordium.HexPages
import Concordium.PathTruncation
import Concordium.PltAmounts
import Concordium.IdentityTexts
import Concordium.ExportReleases
import Concordium.Timestamps
import Concordium.ScheduledReleases
import Concordium.ConfigureBaker
import Concordium.KeySeparation
import Concordium.RegisteredData
