import ArcaEdi.Lib.Runs
import ArcaEdi.Lib.PyText
import ArcaEdi.Lib.Raise
import ArcaEdi.Records
import ArcaEdi.Wsfe
import ArcaEdi.Certificate
import ArcaEdi.Payload
import ArcaEdi.Attempt
import ArcaEdi.AccountMove
import ArcaEdi.Session
import ArcaEdi.Arca
import ArcaEdi.System
import ArcaEdi.Steps
import ArcaEdi.Effects
import ArcaEdi.Writes
import ArcaEdi.Isolation
import ArcaEdi.Jobs
import ArcaEdi.Invariant
import ArcaEdi.Agreement
import ArcaEdi.Ownership
import ArcaEdi.Rows
import ArcaEdi.Log
import ArcaEdi.Vouchers
import ArcaEdi.Matching
import ArcaEdi.Printed
import ArcaEdi.Documents
import ArcaEdi.Custody
import ArcaEdi.Exclusion
import ArcaEdi.Reconciliation
import ArcaEdi.Lib.WorkLog
import ArcaEdi.FiscalTransaction
import ArcaEdi.Actions
import ArcaEdi.Access
import ArcaEdi.Wsaa
import ArcaEdi.Registry
import ArcaEdi.RegistrySteps
import ArcaEdi.RegistryInvariant
import ArcaEdi.KeyLife
import ArcaEdi.Selection
import ArcaEdi.Tickets
import ArcaEdi.Granted
import ArcaEdi.Caller
import ArcaEdi.Routes
import ArcaEdi.BeforeSend
import ArcaEdi.Answers
import ArcaEdi.Transport
import ArcaEdi.Amounts
import ArcaEdi.QrCode
import ArcaEdi.Recording
import ArcaEdi.Lib.Queue
import ArcaEdi.Batch
import ArcaEdi.Alone
import ArcaEdi.Loops
import ArcaEdi.Starvation
import ArcaEdi.Issuers
import ArcaEdi.Environments
import ArcaEdi.Lib.CheckDigit
import ArcaEdi.Cuit
import ArcaEdi.Receptor
import ArcaEdi.Quotation
import ArcaEdi.Aliquots
import ArcaEdi.Dates
import ArcaEdi.Lib.Strptime
import ArcaEdi.Lib.Json
import ArcaEdi.TicketCache
import ArcaEdi.Lib.Base64
import ArcaEdi.Lib.QueryString
import ArcaEdi.Lib.FloatText
import ArcaEdi.QrUrl
import ArcaEdi.Lib.Table
import ArcaEdi.Lib.Script
import ArcaEdi.Homologation
import ArcaEdi.Bootstrap
import ArcaEdi.Preparation
import ArcaEdi.Preflight
import ArcaEdi.LockKeys
import ArcaEdi.Lib.Refinement
import ArcaEdi.Numbering
import ArcaEdi.NumberingRuns
import ArcaEdi.Recovery
import ArcaEdi.Requests
import ArcaEdi.SendOrder
import ArcaEdi.Trail
import ArcaEdi.Notes
import ArcaEdi.Lib.PrettyJson
import ArcaEdi.PayloadText
import ArcaEdi.RunnerOutput
import ArcaEdi.Lib.Erasure
import ArcaEdi.Holder
import ArcaEdi.Lib.Calendar
import ArcaEdi.TicketLife
import ArcaEdi.Brackets
