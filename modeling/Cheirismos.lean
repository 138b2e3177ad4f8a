import Cheirismos.Ordered
import Cheirismos.Table
import Cheirismos.Process
import Cheirismos.RelyGuarantee
import Cheirismos.Dialogues
import Cheirismos.Traces
import Cheirismos.Domain
import Cheirismos.Conditions
import Cheirismos.Records
import Cheirismos.Schema
import Cheirismos.Transactions
import Cheirismos.Evidence
import Cheirismos.Requests
import Cheirismos.Authority
import Cheirismos.Interlocks
import Cheirismos.Supervisor
import Cheirismos.Daemon
import Cheirismos.Bench
import Cheirismos.Holdings
import Cheirismos.Effects
import Cheirismos.Outcomes
import Cheirismos.Regularity
import Cheirismos.Leases
import Cheirismos.Changes
import Cheirismos.Evolution
import Cheirismos.Transitions
import Cheirismos.Conduct
import Cheirismos.Histories
import Cheirismos.Surveys
import Cheirismos.Readings
import Cheirismos.Operations
import Cheirismos.Executions
import Cheirismos.Conformance
import Cheirismos.Custody
import Cheirismos.Dispatches
import Cheirismos.Restarts
import Cheirismos.Lifecycles
import Cheirismos.Completions
import Cheirismos.Budgets
import Cheirismos.Gating
import Cheirismos.Takeovers
import Cheirismos.Replays
import Cheirismos.Cursors
import Cheirismos.Admissions
import Cheirismos.Preflights
import Cheirismos.Reviews
import Cheirismos.Workshops
import Cheirismos.Driving
import Cheirismos.Instruments
import Cheirismos.Cobs
import Cheirismos.Flash
import Cheirismos.Bpio2
import Cheirismos.Bus
import Cheirismos.Devices
import Cheirismos.Identities
import Cheirismos.Backend
import Cheirismos.Declared
import Cheirismos.Rig
import Cheirismos.Restraint
import Cheirismos.Paging
import Cheirismos.Mutations
import Cheirismos.Failures
import Cheirismos.Nor
import Cheirismos.Regions
import Cheirismos.Programming
import Cheirismos.Planners
import Cheirismos.Validation
import Cheirismos.Readiness
import Cheirismos.Transfers
import Cheirismos.Captures
import Cheirismos.Payloads
import Cheirismos.Flashing
import Cheirismos.Recognitions
import Cheirismos.Runs
import Cheirismos.Firmware
import Cheirismos.Differences
import Cheirismos.Candidates
import Cheirismos.Pointers
import Cheirismos.Saves
import Cheirismos.Crews
import Cheirismos.Frontends
import Cheirismos.Directories
import Cheirismos.Locations
import Cheirismos.Publishing
import Cheirismos.Ownership
import Cheirismos.Columns
import Cheirismos.Simulations
import Cheirismos.LeaseKeys
import Cheirismos.Publications
import Cheirismos.Inspections
import Cheirismos.Deposits
import Cheirismos.Provenance
import Cheirismos.Authorship
import Cheirismos.Credentials
import Cheirismos.Entitlements
import Cheirismos.Answers
import Cheirismos.Api
import Cheirismos.Duties
import Cheirismos.Sessions
import Cheirismos.Exclusion
import Cheirismos.Tenures
import Cheirismos.Artifacts
import Cheirismos.Installations
