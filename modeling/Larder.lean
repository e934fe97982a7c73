import Larder.Aisle
import Larder.Binary64.Shortest
import Larder.Binary64.Text
import Larder.Calendar.Date
import Larder.Calendar.Reading
import Larder.Calendar.Timestamp
import Larder.Call
import Larder.Command.CartLine
import Larder.Command.EnvFile
import Larder.Command.Grammar
import Larder.Command.Run
import Larder.Command.Script
import Larder.Command.Usage
import Larder.Decimal
import Larder.Decimal.Binary64
import Larder.Decimal.Text
import Larder.Failure
import Larder.Fridge
import Larder.Json.Decode
import Larder.Json.Fault
import Larder.Json.Node
import Larder.Json.NumberText
import Larder.Json.Printer
import Larder.Json.Reader
import Larder.Json.Record
import Larder.Json.StringText
import Larder.Json.Value
import Larder.Line
import Larder.Main
import Larder.Network.Address
import Larder.Network.Credentials
import Larder.Network.Delivery
import Larder.Network.Host
import Larder.Network.Message
import Larder.Network.Percent
import Larder.Network.PlainForm
import Larder.Network.Relay
import Larder.Order.Basic
import Larder.Order.Cart
import Larder.Polling.Schedule
import Larder.Polling.Status
import Larder.Polling.Watch
import Larder.Proofs.AccountStories
import Larder.Proofs.AccountUse
import Larder.Proofs.AlikeAccounts
import Larder.Proofs.AlikeResponses
import Larder.Proofs.Authorizations
import Larder.Proofs.BatchRules
import Larder.Proofs.Bearers
import Larder.Proofs.CalendarTexts
import Larder.Proofs.CallOutcomes
import Larder.Proofs.CallTraces
import Larder.Proofs.Calls
import Larder.Proofs.CartLines
import Larder.Proofs.Carts
import Larder.Proofs.CompletedSaves
import Larder.Proofs.Conduct
import Larder.Proofs.CredentialTexts
import Larder.Proofs.DeliveryCourse
import Larder.Proofs.DeliveryRecords
import Larder.Proofs.DeliveryWaits
import Larder.Proofs.Disks
import Larder.Proofs.Drops
import Larder.Proofs.Errands
import Larder.Proofs.ErrorTexts
import Larder.Proofs.ExactAmounts
import Larder.Proofs.ExitCodes
import Larder.Proofs.Failures
import Larder.Proofs.Formats
import Larder.Proofs.FridgeOperations
import Larder.Proofs.InterruptedSaves
import Larder.Proofs.KeptSessions
import Larder.Proofs.LeftoverDrafts
import Larder.Proofs.Lines
import Larder.Proofs.LinkFreeVolumes
import Larder.Proofs.LocalRefusals
import Larder.Proofs.MadeDirectories
import Larder.Proofs.ManifestCosts
import Larder.Proofs.ManifestDates
import Larder.Proofs.MergedCarts
import Larder.Proofs.NamedFields
import Larder.Proofs.NumberTexts
import Larder.Proofs.Numerals
import Larder.Proofs.OrderAnswers
import Larder.Proofs.OrderCourse
import Larder.Proofs.OrderOwners
import Larder.Proofs.OrderPolls
import Larder.Proofs.OrderRequests
import Larder.Proofs.Orders
import Larder.Proofs.PairedWatches
import Larder.Proofs.ParallelLines
import Larder.Proofs.ParallelWaits
import Larder.Proofs.PollTimes
import Larder.Proofs.ProperOrders
import Larder.Proofs.ProtectedCalls
import Larder.Proofs.ReadBack
import Larder.Proofs.RecordMembers
import Larder.Proofs.RecordValues
import Larder.Proofs.RenamedRecords
import Larder.Proofs.RenewalTimes
import Larder.Proofs.Renewals
import Larder.Proofs.Reservations
import Larder.Proofs.RestockRecords
import Larder.Proofs.RestoredDevices
import Larder.Proofs.RestoredSessions
import Larder.Proofs.Scripts
import Larder.Proofs.Sessions
import Larder.Proofs.SoundBodies
import Larder.Proofs.SplitWaits
import Larder.Proofs.Stages
import Larder.Proofs.SteadyPolls
import Larder.Proofs.SteadyVaults
import Larder.Proofs.StrictTimestamps
import Larder.Proofs.StringTexts
import Larder.Proofs.SupplierOperations
import Larder.Proofs.Tables
import Larder.Proofs.Tasks
import Larder.Proofs.Trimming
import Larder.Proofs.Turns
import Larder.Proofs.UnseenTokens
import Larder.Proofs.UsableSessions
import Larder.Proofs.VariableSettings
import Larder.Proofs.Vaults
import Larder.Proofs.VolumeWays
import Larder.Proofs.Volumes
import Larder.Proofs.Waiting
import Larder.Proofs.Watches
import Larder.Proofs.WrittenRecords
import Larder.Proofs.WrittenTexts
import Larder.Restock.Basic
import Larder.Restock.Batch
import Larder.Restock.Supplier
import Larder.Service.Request
import Larder.Service.Response
import Larder.Session.Account
import Larder.Session.Basic
import Larder.Settings
import Larder.Storage.Disk
import Larder.Storage.Route
import Larder.Storage.Vault
import Larder.Storage.Volume
import Larder.Table
import Larder.Text.Alphanumeric
import Larder.Text.Base64
import Larder.Text.Blank
import Larder.Text.Control
import Larder.Text.Invisible
import Larder.Text.Numeral
import Larder.Text.Quoted
import Larder.Text.Ranges
import Larder.Text.Styled
import Larder.Text.Utf8
import Larder.Wire.Account
import Larder.Wire.Envelope
import Larder.Wire.Order
import Larder.Wire.Restock
