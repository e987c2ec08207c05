import PolicyBook.Json.Reading
import PolicyBook.Main
import PolicyBook.Proofs.AllOrNothing
import PolicyBook.Proofs.Announcements
import PolicyBook.Proofs.AuditChain
import PolicyBook.Proofs.AuditWindow
import PolicyBook.Proofs.Freshness
import PolicyBook.Proofs.Guards
import PolicyBook.Proofs.History
import PolicyBook.Proofs.Json.Lossless
import PolicyBook.Proofs.OneStory
import PolicyBook.Proofs.RoundTrip
import PolicyBook.Proofs.Serializability
import PolicyBook.Proofs.TrailOrder
import PolicyBook.Proofs.FanOut
import PolicyBook.Proofs.Scenario.Drafting
import PolicyBook.Proofs.SharedStore
import PolicyBook.Proofs.Scenario.Following
import PolicyBook.Proofs.Scenario.Session
import PolicyBook.Proofs.Scenario.Coherence
import PolicyBook.Proofs.Scenario.Separation
import PolicyBook.Proofs.CacheHistory
import PolicyBook.Proofs.FloatRefusal
import PolicyBook.Proofs.RuleLists
import PolicyBook.Proofs.Calendar.Order
import PolicyBook.Proofs.Instants.FixedForm
import PolicyBook.Proofs.EventNames
import PolicyBook.Proofs.Figures
import PolicyBook.Proofs.Instants.Order
import PolicyBook.Proofs.Listing
import PolicyBook.Proofs.Json.MemberOrder
import PolicyBook.Proofs.Inbox.History
import PolicyBook.Proofs.RoleNames
import PolicyBook.Proofs.PolicyIds
import PolicyBook.Proofs.Settings
import PolicyBook.Proofs.Amounts
