import RequestAccess.Json.Normal
import RequestAccess.Main
import RequestAccess.Session
import RequestAccess.Setting
import RequestAccess.Proofs.Run
import RequestAccess.Proofs.Reports
import RequestAccess.Proofs.Refusal
import RequestAccess.Proofs.Evolution
import RequestAccess.Proofs.Given
import RequestAccess.Proofs.Memory
import RequestAccess.Proofs.Decision
import RequestAccess.Proofs.Latch
import RequestAccess.Proofs.Aftermath
import RequestAccess.Proofs.Alike
import RequestAccess.Proofs.ForceStatic
import RequestAccess.Proofs.Effect
import RequestAccess.Proofs.Offer
import RequestAccess.Proofs.Origin
import RequestAccess.Proofs.Authority
import RequestAccess.Proofs.Memoization
import RequestAccess.Proofs.Deferral
import RequestAccess.Proofs.Maker
import RequestAccess.Proofs.Supply
import RequestAccess.Proofs.RawRequest
import RequestAccess.Proofs.Unguarded
import RequestAccess.Proofs.Sightings
import RequestAccess.Proofs.Domain
import RequestAccess.Proofs.Locality
import RequestAccess.Proofs.Independence
import RequestAccess.Proofs.Records
import RequestAccess.Proofs.AuditTrail
import RequestAccess.Proofs.Markers
import RequestAccess.Proofs.CookieHeader
import RequestAccess.Proofs.DraftCookie
import RequestAccess.Proofs.Explaining
import RequestAccess.Proofs.CookieRoundTrip
import RequestAccess.Proofs.Validation
import RequestAccess.Proofs.Survival
import RequestAccess.Proofs.Waiting
import RequestAccess.Proofs.StoreCalls
import RequestAccess.Proofs.HeaderBlock
import RequestAccess.Proofs.HeaderStore
import RequestAccess.Proofs.CookieOverlay
import RequestAccess.Proofs.CookieHistory
import RequestAccess.Proofs.HeaderViews
import RequestAccess.Proofs.HeaderPresence
import RequestAccess.Proofs.Prerendering
import RequestAccess.Proofs.AfterAbort
import RequestAccess.Proofs.AccessGrammar
import RequestAccess.Proofs.TomlLines
import RequestAccess.Proofs.TomlTables
import RequestAccess.Proofs.Template
import RequestAccess.Proofs.JsonText
import RequestAccess.Proofs.LogLine
import RequestAccess.Proofs.CallExpressions
import RequestAccess.Proofs.Discovery
import RequestAccess.Proofs.ScenarioRoundTrip
