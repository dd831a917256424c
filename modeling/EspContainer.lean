import EspContainer.Admission.Delivery
import EspContainer.Admission.Handover
import EspContainer.Admission.SlotAdmission
import EspContainer.Package.BlockCache
import EspContainer.Runtime.Fairness
import EspContainer.Runtime.Ownership
import EspContainer.Runtime.ScanSafety
import EspContainer.Runtime.Sleep
import EspContainer.Runtime.TimerEvents
import EspContainer.Slots.Boot
import EspContainer.Slots.Clients
import EspContainer.Slots.Corruption
import EspContainer.Slots.Forwarding
import EspContainer.Slots.Guarantees
import EspContainer.Slots.Programming
import EspContainer.Tools.GuestRefinement
import EspContainer.Tools.Unpacking
