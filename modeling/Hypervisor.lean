import Hypervisor.Availability
import Hypervisor.Cluster
import Hypervisor.Firewall
import Hypervisor.Guest.Config
import Hypervisor.Inspect
import Hypervisor.Main
import Hypervisor.Proofs.Availability.Lasting
import Hypervisor.Proofs.Entry.Grammar
import Hypervisor.Proofs.Firewall.Lasting
import Hypervisor.Proofs.Form.Agreement
import Hypervisor.Proofs.Packed.Arrangement
import Hypervisor.Proofs.Packed.Condensed
import Hypervisor.Proofs.Packed.Survivors
import Hypervisor.Proofs.Record.Blame
import Hypervisor.Proofs.Record.Create
import Hypervisor.Proofs.Record.Reread
import Hypervisor.Proofs.Record.Shape
import Hypervisor.Proofs.Record.Spelling
import Hypervisor.Proofs.Record.Update
import Hypervisor.Proofs.Record.Wordless
import Hypervisor.Proofs.Scalar.Size
import Hypervisor.Proofs.Storage.Lasting
import Hypervisor.Proofs.Task.Cancel
import Hypervisor.Proofs.Task.Delivery
import Hypervisor.Proofs.Task.Id
import Hypervisor.Proofs.Task.Session
import Hypervisor.Proofs.Task.Verdict
import Hypervisor.Proofs.Wire.Rewritten
import Hypervisor.Proofs.Wire.Spelling
import Hypervisor.Storage
import Hypervisor.Task.Session
import Hypervisor.Proofs.Form.Steps
import Hypervisor.Proofs.Entry.Edits
import Hypervisor.Proofs.Fault.Codes
import Hypervisor.Proofs.Storage.Defaults
import Hypervisor.Proofs.Availability.Ranking
import Hypervisor.Proofs.Value.Rendering
