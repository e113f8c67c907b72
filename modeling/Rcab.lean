import Rcab.Auth.Accounts
import Rcab.Auth.Invariant
import Rcab.Auth.Ledger
import Rcab.Auth.Logout
import Rcab.Auth.OwnSessions
import Rcab.Auth.Principals
import Rcab.Auth.RefreshToken
import Rcab.Auth.Replay
import Rcab.Auth.Session
import Rcab.Auth.SingleChain
import Rcab.Auth.Tokens
import Rcab.Db.Schema
import Rcab.Dispatch.Accept
import Rcab.Dispatch.Assignment
import Rcab.Dispatch.Candidates
import Rcab.Dispatch.HardFail
import Rcab.Dispatch.Offer
import Rcab.Dispatch.Projection
import Rcab.Dispatch.Start
import Rcab.Dispatch.Types
import Rcab.Dispatch.Waves
import Rcab.DriverApp.CatchUp
import Rcab.DriverApp.FromServer
import Rcab.DriverApp.NoRewind
import Rcab.DriverApp.Offer
import Rcab.DriverApp.OfferDesk
import Rcab.DriverApp.Resurrection
import Rcab.DriverApp.Session
import Rcab.DriverApp.SharedRide
import Rcab.DriverApp.SingleFlight
import Rcab.DriverApp.Steps
import Rcab.Drivers.ActiveDrivers
import Rcab.Drivers.Presence
import Rcab.Drivers.State
import Rcab.Lib.Batch
import Rcab.Lib.Bisection
import Rcab.Lib.Gate
import Rcab.Lib.Jwt
import Rcab.Lib.Lease
import Rcab.Lib.Market
import Rcab.Lib.Newest
import Rcab.Lib.Polyline
import Rcab.Lib.Ranking
import Rcab.Lib.ReadCommitted
import Rcab.Lib.ReadThrough
import Rcab.Lib.Refinement
import Rcab.Lib.Run
import Rcab.Lib.Table
import Rcab.Matching.Discovery
import Rcab.Matching.Itinerary
import Rcab.Matching.PoolLifecycle
import Rcab.Matching.PoolMembership
import Rcab.Matching.PoolProjection
import Rcab.Matching.RideStop
import Rcab.Matching.RouteSimilarity
import Rcab.Migrations.Backfilled
import Rcab.Migrations.LegacyMembers
import Rcab.Migrations.Passes
import Rcab.Migrations.PoolMembership
import Rcab.Outbox.Coverage
import Rcab.Outbox.Drain
import Rcab.Outbox.Durable
import Rcab.Outbox.Exhaustion
import Rcab.Outbox.Fencing
import Rcab.Outbox.Isolation
import Rcab.Outbox.Jobs
import Rcab.Outbox.Pass
import Rcab.Outbox.Reconciler
import Rcab.Outbox.Recovery
import Rcab.Outbox.Relay
import Rcab.Outbox.Repository
import Rcab.Outbox.Timers
import Rcab.Outbox.Writer
import Rcab.Pools.Capacity
import Rcab.Pools.Confirm
import Rcab.Pools.Confirmations
import Rcab.Pools.Dispatched
import Rcab.Pools.Greedy
import Rcab.Pools.Itinerary
import Rcab.Pools.Machine
import Rcab.Pools.Membership
import Rcab.Pools.Priced
import Rcab.Pools.Projected
import Rcab.Pools.Refine
import Rcab.Pools.Route
import Rcab.Pools.Simulation
import Rcab.Pools.Stops
import Rcab.Pricing.SeatFare
import Rcab.Rating.Service
import Rcab.Rating.TwoSided
import Rcab.Realtime.Announced
import Rcab.Realtime.Delivery
import Rcab.Realtime.DriverViews
import Rcab.Realtime.Order
import Rcab.Realtime.Parties
import Rcab.Realtime.PoolScreen
import Rcab.Realtime.Private
import Rcab.Realtime.Protocol
import Rcab.Realtime.Publish
import Rcab.Realtime.RideEvents
import Rcab.Realtime.RideScreen
import Rcab.Realtime.Snapshots
import Rcab.Realtime.System
import Rcab.Realtime.Truth
import Rcab.RideLifecycle.ConfirmStop
import Rcab.Rides.Bookings
import Rcab.Rides.Controller
import Rcab.Rides.Idempotency
import Rcab.Rides.Lifecycle
import Rcab.Rides.Machine
import Rcab.Rides.OneRide
import Rcab.Rides.QuotedFares
import Rcab.Rides.Quotes
import Rcab.Rides.Refine
import Rcab.Rides.Repository
import Rcab.Rides.Rows
import Rcab.Rides.SharedCreate
import Rcab.Rides.Simulation
import Rcab.Rides.SoloCreate
import Rcab.Routing.Cache
import Rcab.Routing.Geohash
import Rcab.Scheduled.Rearm
import Rcab.Scheduled.Retry
import Rcab.Seats.Allocate
import Rcab.Seats.Discovered
import Rcab.Seats.Duplicates
import Rcab.Seats.Fingerprint
import Rcab.Seats.Frame
import Rcab.Seats.OneSeat
import Rcab.Seats.Places
import Rcab.Seats.Records
import Rcab.Seats.System
import Rcab.Trips.AcceptRule
import Rcab.Trips.Accepts
import Rcab.Trips.ConfirmRule
import Rcab.Trips.Exclusivity
import Rcab.Trips.LiveOffers
import Rcab.Trips.Machines
import Rcab.Trips.Market
import Rcab.Trips.NoThrow
import Rcab.Trips.Refine
import Rcab.Trips.RefinePools
import Rcab.Trips.RefineRides
import Rcab.Trips.Rejected
import Rcab.Trips.Simulation
import Rcab.Trips.Step
import Rcab.Web.App
import Rcab.Web.AuthStore
import Rcab.Web.Retries
import Rcab.Web.Series
import Rcab.Web.Socket
import Rcab.Web.Subscriber
import Rcab.Work.Intents
import Rcab.Work.System
import Rcab.Work.Windows
