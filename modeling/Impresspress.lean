import Impresspress.Dev.WithinLimits
import Impresspress.Auth.LockedOut
import Impresspress.Auth.OneGeneration
import Impresspress.Auth.FactsExpire
import Impresspress.Auth.SignInAnswers
import Impresspress.Auth.OneLink
import Impresspress.Routing.EffectiveAccess
import Impresspress.Dev.FailedActivation
import Impresspress.Dev.Activation
import Impresspress.Dev.Boot
import Impresspress.Dev.OneServing
import Impresspress.Dev.PublishOrder
import Impresspress.Dev.Recovery
import Impresspress.Dev.Frames
import Impresspress.Dev.Handlers
import Impresspress.Dev.Maintenance
import Impresspress.Dev.Queue
import Impresspress.Concurrent.Faults
import Impresspress.Concurrent.Assertions
import Impresspress.Dev.Publisher
import Impresspress.Products.Commerce.Disputes
import Impresspress.Products.Commerce.OrderLedger
import Impresspress.Routing.PathParams
import Impresspress.Products.Commerce.NewestIntent
import Impresspress.Products.Commerce.DueOperations
import Impresspress.Products.Offers.Immutable
import Impresspress.Products.Sellers.Convergence
import Impresspress.Products.Sellers.Suspension
import Impresspress.Products.Subscription.Agreement
import Impresspress.Products.StripeEvents.RetryBudget
import Impresspress.Files.Allowance
import Impresspress.Dev.Listing
import Impresspress.Dev.Content
import Impresspress.Dev.UndonePublish
import Impresspress.Dev.ZipReader
import Impresspress.Vectors.FilteredQuery
import Impresspress.RateLimits.Budget
import Impresspress.Migrations.ContentHash
import Impresspress.Multipart.RoundTrip
import Impresspress.Llm.Recovered
import Impresspress.Sse.Delivered
import Impresspress.Products.Analytics.Exact
import Impresspress.Products.Checkout.Charges
import Impresspress.Products.ExactDecimals
import Impresspress.Products.Pricing.Faults
import Impresspress.Products.Storage.SamePrices
import Impresspress.Migrations.Refused
import Impresspress.Migrations.Resumed
import Impresspress.RuntimeCache.BuildSlot
import Impresspress.Tickets.Timeline
