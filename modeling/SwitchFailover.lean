import SwitchFailover.Model.KeySets
import SwitchFailover.Model.Canonical
import SwitchFailover.Model.Budgets
import SwitchFailover.Plan.Connectivity
import SwitchFailover.Plan.Rederivation
import SwitchFailover.Plan.RoundTrip
import SwitchFailover.Plan.Service
import SwitchFailover.Plan.Anytime
import SwitchFailover.Plan.SelfCheck
import SwitchFailover.Persist.Replacement
import SwitchFailover.Persist.TornTails
import SwitchFailover.Persist.Sessions
import SwitchFailover.Persist.Tampering
import SwitchFailover.Persist.DigestInputs
import SwitchFailover.Runtime.Sessions
import SwitchFailover.Runtime.Shutdown
import SwitchFailover.Runtime.FenceRecords
import SwitchFailover.Runtime.Supersession
import SwitchFailover.Runtime.Restoration
import SwitchFailover.Runtime.Redeclaration
import SwitchFailover.Runtime.JournalPayloads
import SwitchFailover.Runtime.Coverage
import SwitchFailover.Runtime.Retention
import SwitchFailover.Runtime.PlanNumbers
import SwitchFailover.Transport.Agreement
import SwitchFailover.Transport.Pool
