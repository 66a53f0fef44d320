import Provisioner.Lifecycle
import Provisioner.Creation
import Provisioner.Teardown
import Provisioner.Repetition
import Provisioner.Capacity
import Provisioner.Completeness
import Provisioner.Residue
import Provisioner.Labels
import Provisioner.Orphans
import Provisioner.Reaping
import Provisioner.Lineage
import Provisioner.Waits
import Provisioner.Principals
import Provisioner.Deletion
import Provisioner.Custody
import Provisioner.Dependencies
import Provisioner.Admission
import Provisioner.Removal
import Provisioner.Listing
import Provisioner.Timestamps
import Provisioner.Readiness
import Provisioner.Ceilings
import Provisioner.Interpolation
import Provisioner.Padding
import Provisioner.Settling
import Provisioner.Quiescence
import Provisioner.Grace
import Provisioner.Authority
import Provisioner.Locality
import Provisioner.Isolation
import Provisioner.Visibility
import Provisioner.Delivery
import Provisioner.Confidentiality
import Provisioner.Correlation
import Provisioner.Gate
import Provisioner.Ledger
