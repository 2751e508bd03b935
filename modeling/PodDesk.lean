import PodDesk.Text.CommaList
import PodDesk.Json.Record
import PodDesk.Json.Printer
import PodDesk.Request.Codec
import PodDesk.Request.Validation
import PodDesk.SortedMap
import PodDesk.Timestamp
import PodDesk.Request.OfPod
import PodDesk.Pod.Codec
import PodDesk.Pod.OfRequest
import PodDesk.Pod.Listing
import PodDesk.Replacement.Timeline
import PodDesk.Service.Envelope
import PodDesk.Settings.EnvFile
import PodDesk.Http.Percent
import PodDesk.Http.MediaType
import PodDesk.Http.Origin
import PodDesk.Json.Pointer
import PodDesk.Document.Whole
import PodDesk.Main
import PodDesk.Service.Session
import PodDesk.Client.Kubeconfig
import PodDesk.Client.PodApi
import PodDesk.Proofs.Replacement.Protocol
import PodDesk.Proofs.Replacement.Untimed
import PodDesk.Proofs.Replacement.Absence
import PodDesk.Proofs.Service.Refinement
import PodDesk.Proofs.Request.Resubmission
import PodDesk.Proofs.Replacement.RemovalWait
import PodDesk.Proofs.Service.Abandonment
import PodDesk.Proofs.Replacement.Frame
import PodDesk.Proofs.Replacement.Arguments
import PodDesk.Proofs.Service.Gate
import PodDesk.Proofs.Request.Wire
import PodDesk.Proofs.Request.Retention
import PodDesk.Proofs.Request.Stability
import PodDesk.Proofs.Replacement.RemovalDelay
import PodDesk.Proofs.Request.Quotas
import PodDesk.Proofs.Request.Provenance
import PodDesk.Proofs.Service.Report
import PodDesk.Proofs.Service.Answers
import PodDesk.Proofs.Service.Listing
import PodDesk.Proofs.Replacement.TrialName
import PodDesk.Proofs.Cluster.Selector
import PodDesk.Proofs.Client.Bookmarks
import PodDesk.Proofs.Service.Figures
