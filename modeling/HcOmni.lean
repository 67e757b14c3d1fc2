import HcOmni.Lib.MapSum
import HcOmni.Lib.Program
import HcOmni.Lib.Text
import HcOmni.Lib.Numeral
import HcOmni.Core.Basic
import HcOmni.Core.Tally
import HcOmni.Core.SPInfo
import HcOmni.Core.Rules
import HcOmni.Core.State
import HcOmni.Core.Arith
import HcOmni.Core.Fees
import HcOmni.Core.DEx
import HcOmni.Core.MetaDEx
import HcOmni.Core.Crowdsale
import HcOmni.Core.Payload
import HcOmni.Core.OmniHelper
import HcOmni.Core.CreatePayload
import HcOmni.Core.Transaction
import HcOmni.Core.System
import HcOmni.Ledger.Balances
import HcOmni.Ledger.Steps
import HcOmni.Ledger.Frame
import HcOmni.Ledger.Book
import HcOmni.Ledger.Accepts
import HcOmni.Ledger.Base
import HcOmni.Ledger.Supply
import HcOmni.Ledger.Sound
import HcOmni.Conformance.Basic
import HcOmni.Conformance.DEx
import HcOmni.Lib.Shares
import HcOmni.Conformance.Fees
import HcOmni.Conformance.MetaDEx
import HcOmni.Conformance.Crowdsale
import HcOmni.Conformance.Transaction
import HcOmni.Conformance.System
import HcOmni.Conformance.Rejection
import HcOmni.Runs.Invariant
import HcOmni.Runs.Exchanges
import HcOmni.Lib.Bytes
import HcOmni.Payload.Fields
import HcOmni.Payload.RoundTrip
import HcOmni.Runs.Exhaustion
import HcOmni.Runs.Supply
import HcOmni.Runs.Safety
import HcOmni.Runs.Rejection
import HcOmni.Persist.Format
import HcOmni.Persist.RoundTrip
import HcOmni.Persist.Records
import HcOmni.Runs.Files
import HcOmni.Lib.Bisect
import HcOmni.Node.Stores
import HcOmni.Node.Basic
import HcOmni.Node.Rpc
import HcOmni.Node.Frames
import HcOmni.Node.Pending
import HcOmni.Node.Delivery
import HcOmni.Node.Parked
import HcOmni.Node.Worker
import HcOmni.Node.Snapshots
import HcOmni.Node.Retention
import HcOmni.Node.Recovery
import HcOmni.Node.Waterline
import HcOmni.Lib.Parts
import HcOmni.Conformance.Parts
import HcOmni.Node.Restoring
import HcOmni.Conformance.Fundraiser
import HcOmni.Runs.Kept
import HcOmni.Node.Kept
import HcOmni.Conformance.Receivers
import HcOmni.Runs.Distributions
import HcOmni.Runs.Crowdsales
import HcOmni.Runs.Purchases
import HcOmni.Node.Deadlines
import HcOmni.Runs.Offers
import HcOmni.Runs.Payments
import HcOmni.Runs.Cancels
import HcOmni.Lib.Rounding
import HcOmni.Matching.Plan
import HcOmni.Matching.Refinement
import HcOmni.Matching.Priority
import HcOmni.Node.Activations
import HcOmni.Payload.Agreements
import HcOmni.Payload.Contained
import HcOmni.Payload.Freezing
import HcOmni.Lib.Scan
import HcOmni.Persist.Databases
import HcOmni.Node.Restart
import HcOmni.Persist.Rollbacks
import HcOmni.Persist.Receipts
import HcOmni.Runs.Sales
import HcOmni.Runs.Installments
import HcOmni.Runs.Expiry
import HcOmni.Node.Window
import HcOmni.Lib.Ordered
import HcOmni.Persist.TxHistory
import HcOmni.Node.Payments
import HcOmni.Persist.FeeCache
import HcOmni.Persist.FeeHistory
import HcOmni.Persist.PropertyBlocks
import HcOmni.Runs.Features
import HcOmni.Runs.Freezing
import HcOmni.Ledger.Owners
import HcOmni.Payload.Creation
import HcOmni.Persist.Amounts
import HcOmni.Persist.Listing
import HcOmni.Persist.LocalTxInfo
import HcOmni.Runs.Spending
import HcOmni.Persist.FeeRefinement
import HcOmni.Node.Interleaving
