import McLoving.Admission.Idempotent
import McLoving.Agent.Evidence
import McLoving.Artifacts.Descent
import McLoving.Artifacts.Manifest
import McLoving.Audit.Evidence
import McLoving.Cache.Generations
import McLoving.Cache.Quota
import McLoving.Connector.SentOnce
import McLoving.Dag.Matrix
import McLoving.Dag.Restored
import McLoving.Logs.Chunks
import McLoving.Logs.Streams
import McLoving.Notifications.Claims
import McLoving.Objects.ClaimScan
import McLoving.Objects.Deletion
import McLoving.Pipeline.Expression
import McLoving.Roles.Ownership
import McLoving.Safety.Closure
import McLoving.Safety.RestoreFence
import McLoving.Safety.WaitDiagnostics
import McLoving.Triggers.NextMinutes
import McLoving.Triggers.Progressions
import McLoving.Triggers.PushPaths
