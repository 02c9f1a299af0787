import AssertionGrant.Server
import AssertionGrant.Proofs.Rules
import AssertionGrant.Proofs.Steps
import AssertionGrant.Proofs.Records
import AssertionGrant.Proofs.Frames
import AssertionGrant.Proofs.Gates
import AssertionGrant.Proofs.Handling
import AssertionGrant.Proofs.AtMostOnce
import AssertionGrant.Proofs.Replies
import AssertionGrant.Proofs.Texts
import AssertionGrant.Proofs.Traces
import AssertionGrant.Proofs.Undisturbed
import AssertionGrant.Proofs.Retention
import AssertionGrant.Proofs.Race
import AssertionGrant.Proofs.Digits
import AssertionGrant.Proofs.Strings
import AssertionGrant.Proofs.Doubles
import AssertionGrant.Proofs.Numbers
import AssertionGrant.Proofs.Values
import AssertionGrant.Proofs.Encoding
import AssertionGrant.Proofs.Signatures
import AssertionGrant.Proofs.Shelves
import AssertionGrant.Proofs.Merging
import AssertionGrant.Proofs.Holdings
import AssertionGrant.Proofs.Rolls
import AssertionGrant.Proofs.Decisions
import AssertionGrant.Proofs.Lookups
import AssertionGrant.Proofs.Policy
import AssertionGrant.Proofs.Calls
import AssertionGrant.Proofs.Findings
import AssertionGrant.Proofs.Itinerary
import AssertionGrant.Proofs.Asymmetric
import AssertionGrant.Proofs.Rounding
import AssertionGrant.Proofs.Lifetimes
import AssertionGrant.Proofs.Letters
import AssertionGrant.Proofs.Credentials
import AssertionGrant.Proofs.Segments
import AssertionGrant.Proofs.Words
import AssertionGrant.Proofs.Minting
import AssertionGrant.Proofs.Coverage
import AssertionGrant.Proofs.Registered
import AssertionGrant.Proofs.Requests
import AssertionGrant.Proofs.Exchange
import AssertionGrant.Proofs.Storages
import AssertionGrant.Proofs.Parallel
import AssertionGrant.Proofs.Lockstep
import AssertionGrant.Proofs.Tenants
import AssertionGrant.Proofs.Serving
import AssertionGrant.Proofs.Accounts
import AssertionGrant.Proofs.Verdicts
import AssertionGrant.Proofs.Commuting
import AssertionGrant.Proofs.Offers
import AssertionGrant.Proofs.Faults
import AssertionGrant.Proofs.Trials
import AssertionGrant.Proofs.Outages
import AssertionGrant.Proofs.Deadlines
import AssertionGrant.Proofs.Purging
import AssertionGrant.Proofs.Expiries
import AssertionGrant.Proofs.Twins
import AssertionGrant.Proofs.Answers
import AssertionGrant.Proofs.Enrolment
import AssertionGrant.Proofs.Histories
import AssertionGrant.Proofs.Backends
import AssertionGrant.Proofs.Branches
import AssertionGrant.Proofs.Patterns
import AssertionGrant.Proofs.Delegation
import AssertionGrant.Proofs.Windows
import AssertionGrant.Proofs.Addresses
import AssertionGrant.Proofs.Audiences
import AssertionGrant.Proofs.Seconds
import AssertionGrant.Proofs.Endings
import AssertionGrant.Proofs.Filling
import AssertionGrant.Proofs.Phrases
import AssertionGrant.Proofs.Extraction
import AssertionGrant.Proofs.Padding
import AssertionGrant.Proofs.Environments
import AssertionGrant.Proofs.KeyFaults
import AssertionGrant.Proofs.Corruption
import AssertionGrant.Proofs.Upkeep
