import PlateVault.Custody.Settles
import PlateVault.Custody.Intent
import PlateVault.Custody.Trash
import PlateVault.Apply.Manifests
import PlateVault.Inventory.Absent
import PlateVault.Sessions.Captured
import PlateVault.Calibration.Pinned
import PlateVault.Reminders.OnSchedule
import PlateVault.Reminders.Lifecycle
import PlateVault.View.Previous
import PlateVault.Roots.System
import PlateVault.Import.Preview
import PlateVault.Import.Settled
import PlateVault.Library.Rehash
import PlateVault.Planning.Calendar
import PlateVault.Planning.TargetsList
import PlateVault.Planning.Listing
import PlateVault.Pixels.Decoded
import PlateVault.Fits.Patched
import PlateVault.Subframes.Exported
import PlateVault.Projects.Placed
import PlateVault.Projects.HiddenRuns
import PlateVault.Output.Offered
import PlateVault.Output.Unblocked
import PlateVault.Admission.Agree
import PlateVault.Issues.Episodes
import PlateVault.Naming.Stable
import PlateVault.Rigs.Recorded
import PlateVault.Import.Merged
import PlateVault.Measurements.Conserved
