import Kori.Foundation.Code
import Kori.Foundation.Interleaving
import Kori.Foundation.RelyGuarantee
import Kori.Foundation.RowStore
import Kori.Foundation.RowSum
import Kori.Foundation.UniqueIndex
import Kori.Domain.Text
import Kori.Domain.Money
import Kori.Schema
import Kori.Server
import Kori.Infrastructure
import Kori.Wallets
import Kori.Transactions
import Kori.Accounts
import Kori.Auth.Proofs
import Kori.Auth.Sessions
import Kori.App
import Kori.Data.Integrity
import Kori.Contract.Effects
import Kori.Contract.Preservation
import Kori.Contract.Guarantee
import Kori.Contract.Queries
import Kori.Contract.Writes
import Kori.Contract.Commits
import Kori.Contract.Requests
import Kori.Contract.Accounts
import Kori.Contract.Proofs
import Kori.Contract.Sessions
import Kori.Contract.Registration
import Kori.Contract.Preflight
import Kori.Contract.Transfers
import Kori.Contract.Idempotency
import Kori.Contract.Admission
import Kori.Contract.Runs
import Kori.Ledger.Entries
import Kori.Ledger.Conservation
import Kori.Ledger.Participants
import Kori.Idempotency.Answers
import Kori.Idempotency.Cache
import Kori.Idempotency.Markers
import Kori.Idempotency.Retries
import Kori.Foundation.Trail
import Kori.Sessions.Steps
import Kori.Sessions.Chain
import Kori.Sessions.Ended
import Kori.Sessions.Replay
import Kori.Ledger.Balances
import Kori.Ledger.Authorised
import Kori.Foundation.History
import Kori.Foundation.Statements
import Kori.Conduct.Rules
import Kori.Conduct.Steps
import Kori.Conduct.Rows
import Kori.Conduct.Proofs
import Kori.Conduct.Sessions
import Kori.Conduct.Footprint
import Kori.Conduct.Received
import Kori.Conduct.Registrations
import Kori.Conduct.Suspensions
import Kori.Sessions.Listing
import Kori.Restrictions.Frozen
import Kori.Sessions.Frames
import Kori.Restrictions.Sessions
import Kori.Conduct.Keys
import Kori.Conduct.Commands
import Kori.Verification.Challenges
import Kori.Verification.Attempts
import Kori.Verification.Accounts
import Kori.Verification.Devices
import Kori.Verification.Logins
import Kori.Verification.Throttling
import Kori.Verification.Guesses
import Kori.Domain.Fees
import Kori.Verification.Amounts
import Kori.Foundation.JsValue
import Kori.Auth.Claims
import Kori.Foundation.Interpret
import Kori.Verification.Duplicates
import Kori.Verification.Roles
import Kori.Conduct.Approvals
import Kori.Verification.Approvals
import Kori.Foundation.Waiting
import Kori.Conduct.Locks
import Kori.Ledger.Deadlocks
import Kori.Foundation.Hiding
import Kori.Verification.Enumeration
import Kori.Runtime.Numbers
import Kori.Runtime.Json
import Kori.Runtime.Values
import Kori.Idempotency.Bodies
import Kori.Foundation.Answering
import Kori.Conduct.Ending
import Kori.Verification.Endings
import Kori.Conduct.Fields
import Kori.Conduct.Guards
import Kori.Restrictions.Authority
import Kori.Foundation.Serial
import Kori.Ledger.Bank
import Kori.Ledger.Serial
import Kori.Deployment.StartUp
import Kori.Deployment.Constraints
import Kori.Deployment.Service
import Kori.Conduct.Tokens
import Kori.Verification.Tokens
import Kori.Foundation.Exclusion
import Kori.Conduct.Resend
import Kori.Verification.Resends
import Kori.Runtime.Integers
import Kori.Cache.Keys
import Kori.Cache.Texts
import Kori.Cache.Refinement
import Kori.Conduct.Sending
import Kori.Conduct.Received
import Kori.Cache.Runs
import Kori.Verification.Isolation
