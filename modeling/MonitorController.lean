import MonitorController.Reducer.Reduce
import MonitorController.Safety.Sound
import MonitorController.Transition.Moves
import MonitorController.Transition.Step
import MonitorController.Transition.Workers
import MonitorController.Transition.Selection
import MonitorController.Transition.Observation
import MonitorController.Safety.Components
import MonitorController.Safety.Totality
import MonitorController.Safety.Wakes
import MonitorController.Safety.Exclusion
import MonitorController.Transition.Frame
import MonitorController.Safety.Topology
import MonitorController.Safety.Freshness
import MonitorController.Safety.Probes
import MonitorController.Safety.Finalized
import MonitorController.Safety.Loads
import MonitorController.Safety.Stale
import MonitorController.Safety.Intents
import MonitorController.Safety.Unplug
import MonitorController.Safety.Continuity
import MonitorController.Codec.Bounds
import MonitorController.Recovery.Retention
import MonitorController.Recovery.FailClosed
import MonitorController.Transactions.Races
import MonitorController.Plans.Revocation
import MonitorController.Observer.Edid
import MonitorController.Workers.Apply
import MonitorController.Desktop.Layout
import MonitorController.Foundation.Paths
import MonitorController.Desktop.Panel
import MonitorController.Desktop.PanelPlans
import MonitorController.Desktop.LayoutPaths
import MonitorController.Desktop.LayoutIncludes
import MonitorController.Desktop.LayoutCapture
import MonitorController.Desktop.TemplateHelpers
import MonitorController.Desktop.DefaultColumns
import MonitorController.Observer.Bijections
import MonitorController.Desktop.LayoutExpansion
import MonitorController.Transactions.Identities
import MonitorController.Transactions.UnitNames
import MonitorController.Desktop.ScreenNumbers
import MonitorController.Desktop.Waits
import MonitorController.Runtime.Audit
import MonitorController.Runtime.Restart
