import GigMarketplace.Models
import GigMarketplace.Payments
import GigMarketplace.Jobs
import GigMarketplace.Core.History
import GigMarketplace.Core.Escrow
import GigMarketplace.System
import GigMarketplace.Lifecycle
import GigMarketplace.Escrow
import GigMarketplace.Ledger
import GigMarketplace.Settlement
import GigMarketplace.Deposits
import GigMarketplace.Webhooks
import GigMarketplace.Concurrency
import GigMarketplace.Chain
import GigMarketplace.JobHistory
import GigMarketplace.Providers
import GigMarketplace.Core.LockOrder
import GigMarketplace.Deadlock
import GigMarketplace.Accounts
import GigMarketplace.Profiles
import GigMarketplace.Ratings
import GigMarketplace.Otp
import GigMarketplace.Verification
import GigMarketplace.Core.Apart
import GigMarketplace.RateLimit
import GigMarketplace.Core.Calls
import GigMarketplace.Guessing
import GigMarketplace.Rest
import GigMarketplace.Roles
import GigMarketplace.Chat
import GigMarketplace.Participants
import GigMarketplace.ChatSignals
import GigMarketplace.Core.Outbox
import GigMarketplace.Permissions
import GigMarketplace.Notifications
import GigMarketplace.AcceptConflicts
import GigMarketplace.DeviceTokens
import GigMarketplace.Core.Base64
import GigMarketplace.PaymeHeader
import GigMarketplace.ClickSignature
import GigMarketplace.Core.Sorting
import GigMarketplace.Core.Sphere
import GigMarketplace.Discovery
import GigMarketplace.GeoSearch
import GigMarketplace.SearchOrder
import GigMarketplace.Decimals
import GigMarketplace.RatingMean
import GigMarketplace.Core.Ensures
import GigMarketplace.SendOtp
import GigMarketplace.Commission
import GigMarketplace.RatingIds
import GigMarketplace.Frames
import GigMarketplace.ChatPaths
import GigMarketplace.ClientFrames
import GigMarketplace.ReadReceipts
import GigMarketplace.Core.Paging
import GigMarketplace.Pagination
import GigMarketplace.TransactionHistory
import GigMarketplace.BulkPush
import GigMarketplace.ErrorEnvelope
import GigMarketplace.LedgerAmounts
import GigMarketplace.SmsRetry
import GigMarketplace.TokenUpsert
import GigMarketplace.WebhookEnvelope
import GigMarketplace.Core.CacheAside
import GigMarketplace.Categories
import GigMarketplace.ChatDelivery
import GigMarketplace.Core.Answers
import GigMarketplace.Core.GrowingPages
import GigMarketplace.PagedReads
import GigMarketplace.ChatHistory
import GigMarketplace.Inbox
import GigMarketplace.Core.Zoom
import GigMarketplace.Market
import GigMarketplace.People
import GigMarketplace.OtpRecords
import GigMarketplace.SignIn
import GigMarketplace.Sessions
import GigMarketplace.Requests
import GigMarketplace.Authority
import GigMarketplace.MyJobs
import GigMarketplace.Browsing
