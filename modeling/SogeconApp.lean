import SogeconApp.Library.Sessions
import SogeconApp.Library.Sequential
import SogeconApp.Library.Sql
import SogeconApp.Library.Columns
import SogeconApp.Source.ScheduledPush.Store
import SogeconApp.Source.ScheduledPush.Programs
import SogeconApp.Guarantees.ScheduledPush.Phases
import SogeconApp.Guarantees.ScheduledPush.AtMostOnce
import SogeconApp.Guarantees.ScheduledPush.LogFencing
import SogeconApp.Guarantees.ScheduledPush.Alone
import SogeconApp.Guarantees.ScheduledPush.Batches
import SogeconApp.Guarantees.ScheduledPush.OneRun
import SogeconApp.Guarantees.ScheduledPush.RetryExactness
import SogeconApp.Guarantees.ScheduledPush.Accounting
import SogeconApp.Source.Subscriptions
import SogeconApp.Guarantees.SubscriptionOwnership
import SogeconApp.Guarantees.RsvpCapacity
import SogeconApp.Source.EventSeats
import SogeconApp.Guarantees.Waitlist
import SogeconApp.Source.Accounts.Store
import SogeconApp.Source.Accounts.Members
import SogeconApp.Source.Accounts.Signup
import SogeconApp.Guarantees.Accounts.Alone
import SogeconApp.Guarantees.Accounts.LastSuperAdmin
import SogeconApp.Guarantees.Accounts.ActivationSingleUse
import SogeconApp.Guarantees.Accounts.SignupDecision
import SogeconApp.Guarantees.Accounts.SignupUniqueness
import SogeconApp.Guarantees.Accounts.CredentialApproval
import SogeconApp.Source.Auth
import SogeconApp.Guarantees.SessionAuthority
import SogeconApp.Source.ProfileChanges
import SogeconApp.Guarantees.ProfileDecision
import SogeconApp.Source.Posts
import SogeconApp.Guarantees.PostVisibility
import SogeconApp.Source.PublicReads
import SogeconApp.Guarantees.UnpublishedPosts
import SogeconApp.Source.PostWrites
import SogeconApp.Guarantees.BoardMembership
import SogeconApp.Source.Directory
import SogeconApp.Guarantees.DirectoryVisibility
import SogeconApp.Source.PartialUpdates
import SogeconApp.Guarantees.PartialUpdates
import SogeconApp.Guarantees.SeatHolding
import SogeconApp.Guarantees.Accounts.SuperAdminGuard
import SogeconApp.Guarantees.Accounts.ApprovalOutcomes
import SogeconApp.Guarantees.Accounts.AddressCase
import SogeconApp.Library.Urls
import SogeconApp.Source.MediaPaths
import SogeconApp.Guarantees.MediaRetraction
import SogeconApp.Guarantees.OwnerMutations
import SogeconApp.Library.Paging
import SogeconApp.Source.Listings
import SogeconApp.Guarantees.ListingPages
import SogeconApp.Guarantees.StoredAvatars
import SogeconApp.Library.Base64
import SogeconApp.Source.PushCrypto
import SogeconApp.Source.Broadcast
import SogeconApp.Guarantees.BroadcastAccounting
import SogeconApp.Guarantees.PushSecrets
import SogeconApp.Library.SlidingWindow
import SogeconApp.Source.Numerals
import SogeconApp.Source.RateLimits
import SogeconApp.Guarantees.ClientAddress
import SogeconApp.Guarantees.RateWindow
import SogeconApp.Source.Rekey
import SogeconApp.Guarantees.Rekey
import SogeconApp.Guarantees.EventPages
import SogeconApp.Guarantees.QueuePages
import SogeconApp.Guarantees.LiteralSearch
import SogeconApp.Guarantees.RoleSets
import SogeconApp.Guarantees.HeroSlides
import SogeconApp.Guarantees.ProfileRequests
import SogeconApp.Library.Trim
import SogeconApp.Source.RoleEditor
import SogeconApp.Guarantees.RoleEditor
import SogeconApp.Guarantees.ExternalReferences
import SogeconApp.Source.EventTimes
import SogeconApp.Guarantees.EventTimes
import SogeconApp.Source.PhoneNumbers
import SogeconApp.Guarantees.PhoneNumbers
import SogeconApp.Source.HeroControls
import SogeconApp.Guarantees.HeroControls
import SogeconApp.Source.SupportTickets
import SogeconApp.Guarantees.SupportTickets
import SogeconApp.Library.OrderedDict
import SogeconApp.Source.CountCache
import SogeconApp.Guarantees.CountCache
import SogeconApp.Library.Binary64
import SogeconApp.Library.ScriptNumbers
import SogeconApp.Library.FormUrlencoded
import SogeconApp.Source.DirectoryUrl
import SogeconApp.Guarantees.DirectoryUrl
import SogeconApp.Guarantees.RekeyConvergence
import SogeconApp.Guarantees.ScheduledPush.StaleSweep
import SogeconApp.Source.ImageUploads
import SogeconApp.Guarantees.ImageUploads
import SogeconApp.Library.Confined
import SogeconApp.Library.Traced
import SogeconApp.Library.Versions
import SogeconApp.Source.ScheduledPush.Trigger
import SogeconApp.Guarantees.ScheduledPush.Trigger
import SogeconApp.Guarantees.ScheduledPush.TriggerExactness
import SogeconApp.Source.SignIn
import SogeconApp.Guarantees.SignIn.Policy
import SogeconApp.Guarantees.SignIn.Checks
import SogeconApp.Guarantees.SignIn.Routes
import SogeconApp.Guarantees.SignIn.Rows
import SogeconApp.Guarantees.SignIn.Provenance
import SogeconApp.Guarantees.SignIn.Escalation
import SogeconApp.Guarantees.SignIn.Records
import SogeconApp.Guarantees.SignIn.Opening
import SogeconApp.Library.Lineage
import SogeconApp.Source.Board
import SogeconApp.Guarantees.Board.Policy
import SogeconApp.Guarantees.Board.Routes
import SogeconApp.Guarantees.Board.Rows
import SogeconApp.Guarantees.Board.Steps
import SogeconApp.Guarantees.Board.Authority
import SogeconApp.Library.Steps
import SogeconApp.Source.PostEditor
import SogeconApp.Guarantees.PostEditor.Images
import SogeconApp.Guarantees.PostEditor.Saves
import SogeconApp.Source.ServiceWorker
import SogeconApp.Guarantees.ServiceWorker
import SogeconApp.Guarantees.EventEditor.Reopened
import SogeconApp.Guarantees.Board.Views
import SogeconApp.Library.Exceptions
import SogeconApp.Library.Exchanged
import SogeconApp.Guarantees.ScheduledPush.LogAlone
import SogeconApp.Guarantees.ScheduledPush.Unhandled
import SogeconApp.Guarantees.ScheduledPush.Finalizing
import SogeconApp.Guarantees.SignIn.NewPasswords
import SogeconApp.Guarantees.Board.OneView
