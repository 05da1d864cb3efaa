import Lending.Account
import Lending.Action
import Lending.Action.Payload
import Lending.BondBook
import Lending.Bytes
import Lending.Bytes.Base58
import Lending.Bytes.LittleEndian
import Lending.Bytes.Reader
import Lending.Desk
import Lending.Fault
import Lending.FeeSchedule
import Lending.History
import Lending.Image
import Lending.Ledger
import Lending.Ledger.Audit
import Lending.Ledger.Effect
import Lending.Ledger.Snapshot
import Lending.Outcome
import Lending.Pool
import Lending.Position
import Lending.Position.Lemmas
import Lending.Quantity
import Lending.Quantity.Ratio
import Lending.Rate
import Lending.RateCurve
import Lending.Receipt
import Lending.ShareBook
import Lending.SortedMap
import Lending.Proofs.Rounding
import Lending.Proofs.ExactRatio
import Lending.Proofs.Sums
import Lending.Proofs.Turnover
import Lending.Proofs.Auditing
import Lending.Proofs.Soundness
import Lending.Proofs.PriceFloor
import Lending.Proofs.Reconciliation
import Lending.Proofs.Refusals
import Lending.Proofs.Quotes
import Lending.Proofs.SharePrice
import Lending.Proofs.BondPrice
import Lending.Proofs.Stakes
import Lending.Proofs.Borrowing
import Lending.Proofs.Splitting
import Lending.Proofs.Ownership
import Lending.Proofs.Insolvency
import Lending.Proofs.Tidiness
import Lending.Proofs.Unwinding
import Lending.Proofs.Neutrality
import Lending.Proofs.Funding
import Lending.Proofs.Atomicity
import Lending.Proofs.Carrying
import Lending.Proofs.Factoring
import Lending.Proofs.Authority
import Lending.Proofs.Grammar
import Lending.Proofs.Valuation
import Lending.Proofs.Records
import Lending.Proofs.Persistence
import Lending.Proofs.Allowances
import Lending.Proofs.Interest
import Lending.Proofs.Clock
import Lending.Proofs.Compounding
import Lending.Proofs.DebtBrackets
import Lending.Proofs.ShareBrackets
import Lending.Proofs.Conversion
import Lending.Proofs.Widths
import Lending.Proofs.Utilization
import Lending.Proofs.Retirement
import Lending.Proofs.Collateral
import Lending.Proofs.ExactRatio
