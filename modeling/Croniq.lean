import Croniq.RetryBackoff
import Croniq.DispatchFence
import Croniq.CancelDelivery
import Croniq.FireBounds
import Croniq.ImportGraph
import Croniq.PlaceholderSubstitution
import Croniq.CompletionAlerts
import Croniq.RunnerRegistry
import Croniq.OnceEdits
import Croniq.Sessions
import Croniq.CredentialScopes
import Croniq.AdoptionFires
import Croniq.AdminGuard
import Croniq.RepeatedTriggers
import Croniq.SharedGates
import Croniq.KeptPendingFires
import Croniq.ExhaustedTriggers
import Croniq.PriorityAging
import Croniq.FireCadence
import Croniq.ExecutionPages
import Croniq.ModePrecedence
import Croniq.CalendarDenotation
import Croniq.AlertGlobs
import Croniq.ScheduleRange
import Croniq.WrittenDurations
import Croniq.JobEnvironment
import Croniq.LoginThrottle
import Croniq.LiveConsole
import Croniq.MaintenanceSwitch
