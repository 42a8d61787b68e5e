import Oblivia.Chain.CoSign
import Oblivia.Chain.Totals
import Oblivia.Chain.Settings
import Oblivia.Chain.Independence
import Oblivia.Client.Completeness
import Oblivia.Relay.Handlers
import Oblivia.Relay.TopUps
import Oblivia.Client.AccountState
import Oblivia.Relay.Routes
import Oblivia.Relay.Submissions
import Oblivia.Client.AccountLayout
import Oblivia.Client.Network
import Oblivia.Client.AgreementAnswers
import Oblivia.Client.AgreementCreation
import Oblivia.Relay.ConcurrentCreation
import Oblivia.Client.CoSignPage
import Oblivia.Client.CoSignFinality
import Oblivia.Client.CoSignReceipts
import Oblivia.Client.SignPage
import Oblivia.Client.SignPageReceipts
import Oblivia.Relay.BudgetMirror
import Oblivia.Relay.RecordedSpend
import Oblivia.Client.ProofFormat
import Oblivia.Chain.VerifyingKey
import Oblivia.Lib.UrlEncoding
import Oblivia.Client.ShareLink
import Oblivia.Relay.RequestGrammar
import Oblivia.Relay.AccountReads
import Oblivia.Lib.FixedWindow
import Oblivia.Relay.RateLimit
import Oblivia.Client.SignerContainers
import Oblivia.Lib.Regex
import Oblivia.Client.PasskeyDomain
import Oblivia.Client.PasskeyPages
import Oblivia.Client.Passkey
import Oblivia.Chain.Inactive
import Oblivia.Lib.Exclusive
import Oblivia.Client.SignerSecrets
import Oblivia.Lib.Service
import Oblivia.Relay.Http
import Oblivia.Client.CoSignService
import Oblivia.Client.CoSignTruth
import Oblivia.Client.SignPageTruth
import Oblivia.Client.Sdk
import Oblivia.Client.SdkPromises
import Oblivia.Chain.Events
import Oblivia.Chain.Histories
import Oblivia.Lib.Rounding
import Oblivia.Relay.SponsorSettings
import Oblivia.Relay.ConcurrentSigning
import Oblivia.Client.ShareLinkTruth
import Oblivia.Client.CoSignButton
import Oblivia.Client.SignPageButton
