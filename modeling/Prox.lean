import Prox.Lib.Go
import Prox.Lib.Table
import Prox.Lib.Run
import Prox.Lib.Time
import Prox.Lib.Batch
import Prox.Model.Errors
import Prox.Wallet.Ledger
import Prox.Wallet.Effect
import Prox.Wallet.Maintenance
import Prox.Wallet.Calls
import Prox.Wallet.Accounting
import Prox.Wallet.Terminal
import Prox.Wallet.Unsettled
import Prox.Lib.Calendar
import Prox.Lib.Lists
import Prox.Subscription.Quota
import Prox.Subscription.CatchUp
import Prox.Subscription.Effect
import Prox.Subscription.Calls
import Prox.Subscription.Counter
import Prox.Subscription.Period
import Prox.Subscription.Retry
import Prox.Reward.Budget
import Prox.Reward.Grant
import Prox.Reward.Effect
import Prox.Reward.Calls
import Prox.Reward.Conservation
import Prox.Reward.Caps
import Prox.Reward.Reset
import Prox.Reward.Daily
import Prox.Reward.Replay
import Prox.Reward.Invitation
import Prox.Reward.InvitationCost
import Prox.Payment.TopUp
import Prox.Subscription.Purchase
import Prox.Subscription.Expire
import Prox.Subscription.Groups
import Prox.Subscription.Limit
import Prox.Subscription.Maintenance
import Prox.Model.Journal
import Prox.Task.Outbox
import Prox.Task.ExactlyOnce
import Prox.Task.Transition
import Prox.Task.Settlement
import Prox.Billing.Hold
import Prox.Billing.Session
import Prox.Billing.Agreement
import Prox.Billing.Resize
import Prox.Billing.Tracked
import Prox.Lib.Decimal
import Prox.Relay.ClaudeStream
import Prox.Relay.ClaudeGrammar
import Prox.Relay.ClaudeWellFormed
import Prox.Relay.ClaudeContent
import Prox.Relay.ClaudeLossless
import Prox.Relay.ResponsesChat
import Prox.Relay.ResponsesAgreement
import Prox.Relay.OpenAIStream
import Prox.Relay.ThinkToContent
import Prox.Relay.NegativeIndex
import Prox.Relay.GeminiRequest
import Prox.Relay.ClaudeMessage
import Prox.Relay.ClaudeResponse
import Prox.Relay.ClaudeRequest
import Prox.Relay.ChatToClaude
import Prox.Relay.ChatToClaudeRuns
import Prox.Relay.ChatToClaudeSent
import Prox.Realtime.Quota
import Prox.Realtime.Session
import Prox.Lib.Mirror
import Prox.Routing.Channels
import Prox.Routing.Abilities
import Prox.Routing.Faithful
import Prox.Lib.Choice
import Prox.Routing.Cache
import Prox.Routing.Choice
import Prox.Routing.Listing
import Prox.Routing.Rebuild
import Prox.Routing.Selection
import Prox.Routing.Modes
import Prox.Lib.Cyclic
import Prox.Routing.Polling
import Prox.Routing.StatusMirror
import Prox.Lib.Lines
import Prox.Routing.KeyEdits
import Prox.Routing.KeyEditsKept
import Prox.Routing.KeyEditsIntended
import Prox.Lib.Threads
import Prox.Lib.Fencing
import Prox.Lease.Claim
import Prox.Lease.Fenced
import Prox.Batch.Updater
import Prox.Batch.Conservation
import Prox.Batch.PreConsume
import Prox.Payment.CreditOnce
import Prox.Reward.Checkin
import Prox.Reward.CheckinBudget
import Prox.RateLimit.InMemory
import Prox.RateLimit.Limited
import Prox.RateLimit.Sliding
import Prox.Lib.Dict
import Prox.Game.Plugins
import Prox.Game.Director
import Prox.Game.Settled
import Prox.Game.Shares
import Prox.Agent.Actions
import Prox.Agent.Consent
import Prox.Agent.Runs
import Prox.Access.Control
import Prox.Access.Freezes
import Prox.Access.Membership
import Prox.Access.Shown
import Prox.Access.LatestEvent
import Prox.Access.Grace
import Prox.Access.Override
import Prox.Quiz.Bank
import Prox.Quiz.Rounds
import Prox.Quiz.Rewards
import Prox.Quiz.Limits
import Prox.Billing.Reserve
import Prox.Billing.Opening
import Prox.Reward.TopUp
import Prox.Account.Profile
import Prox.Lib.Upsert
import Prox.Access.Owners
import Prox.Account.TwoFactor
import Prox.Account.Revocation
import Prox.Lib.InPlace
import Prox.Reward.InviteGrant
import Prox.Reward.ChatInvite
import Prox.Reward.InviteEffect
import Prox.Reward.InvitePaid
import Prox.Reward.InviteBounds
import Prox.Wallet.Sweep
import Prox.Payment.Completions
import Prox.Payment.Redemptions
import Prox.Reward.AffTransfer
import Prox.Text.Summary
import Prox.Text.Tiered
import Prox.Text.Consume
import Prox.Lib.Json
import Prox.Relay.PruneObjects
import Prox.Lib.JsonPlaces
import Prox.Relay.WildcardPaths
import Prox.Relay.WildcardOperations
import Prox.Community.RoomCursor
import Prox.Community.SiteIdentity
import Prox.Task.Recovery
import Prox.Wallet.History
