import Scap.Lib.Run
import Scap.Lib.KeyedTable
import Scap.Lib.Cursor
import Scap.Lib.HashChain
import Scap.Lib.OneTime
import Scap.Py.Float
import Scap.Py.Json
import Scap.Py.DateTime
import Scap.Py.Hmac
import Scap.Audit.Event
import Scap.Audit.Chain
import Scap.Audit.Agreement
import Scap.Audit.Checkpoint
import Scap.Audit.Tamper
import Scap.Auth.Model
import Scap.Auth.Routes
import Scap.Auth.Effects
import Scap.Auth.Families
import Scap.Auth.Accounts
import Scap.Auth.Revocation
import Scap.E2ee.Wire
import Scap.E2ee.Model
import Scap.E2ee.Routes
import Scap.E2ee.Effects
import Scap.E2ee.Envelopes
import Scap.E2ee.Epochs
import Scap.E2ee.Membership
import Scap.E2ee.Delivery
import Scap.E2ee.Prekeys
import Scap.E2ee.Uploads
import Scap.E2ee.Outbox
import Scap.Sessions.Freeze
import Scap.E2ee.Enrolment
import Scap.Factors.Model
import Scap.Auth.Ledger
import Scap.Factors.OneUse
import Scap.Audit.Workers
import Scap.Audit.Anchoring
import Scap.Crypto.RoundTrip
import Scap.Crypto.SecretRuns
import Scap.Limits.Refinement
import Scap.Limits.Agreement
import Scap.Factors.Passkeys
import Scap.E2ee.Canonical
import Scap.Intrusion.Runs
import Scap.Sessions.Sequence
import Scap.Auth.ActiveAdmin
import Scap.Recovery.Runs
import Scap.Client.Authentic
import Scap.ChatFiles.Admission
import Scap.ChatFiles.Excerpts
import Scap.ChatFiles.Runs
import Scap.Availability.Conservation
import Scap.Mail.Conservation
import Scap.Retention.DryRun
import Scap.Retention.Deadlines
import Scap.Backup.Restore
import Scap.Workbench.Containers
import Scap.Dlp.Dictionary
import Scap.Dlp.Normal
import Scap.E2ee.ReplayKey
import Scap.Factors.Totp
import Scap.Limits.Refunds
import Scap.Lockout.Mfa
import Scap.Lib.Regex
import Scap.Lib.Exploration
import Scap.Dlp.Rules
import Scap.Dlp.Views
import Scap.Dlp.Scanner
import Scap.Dlp.Scrub
import Scap.Dlp.Sanitise
import Scap.Dlp.Provenance
import Scap.Dlp.Decision
import Scap.Lib.Paging
import Scap.Transcripts.Search
import Scap.Lib.Stream
import Scap.Py.JsonText
import Scap.Transcripts.Export
import Scap.Notifications.Phone
import Scap.Notifications.Budget
import Scap.Lib.Links
import Scap.Browser.Store
import Scap.Browser.Rotations
import Scap.Browser.Handoffs
import Scap.Browser.Devices
import Scap.Lib.Episodes
import Scap.Intrusion.Correlation
import Scap.Js.Grammar
import Scap.Workbench.Strict
import Scap.GeoIp.Installation
import Scap.Ai.Egress
import Scap.Backup.Repetition
import Scap.Availability.Accounting
import Scap.Gradio.ResultQueue
import Scap.Intrusion.Agreement
import Scap.Intrusion.CommentView
import Scap.Crypto.Rotation
import Scap.Lib.Sealing
import Scap.SignIn.Devices
import Scap.SignIn.Recognition
import Scap.Py.IpAddress
import Scap.Network.Hosts
import Scap.Network.ClientContext
import Scap.Gradio.Retention
import Scap.Intrusion.Inspection
