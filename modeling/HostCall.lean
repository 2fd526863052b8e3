import HostCall.Callable.Invoke
import HostCall.Floating.Bits
import HostCall.Store.Equality
import HostCall.Proofs.Overload.Binding
import HostCall.Proofs.Overload.Representation
import HostCall.Proofs.Overload.Dispatch
import HostCall.Proofs.Callable.Reachable
import HostCall.Proofs.Overload.Shares
import HostCall.Proofs.Callable.Marshalling
import HostCall.Proofs.Callable.Steps
import HostCall.Proofs.Callable.Journal
import HostCall.Proofs.Store.Extension
import HostCall.Proofs.Callable.Outcome
import HostCall.Proofs.Overload.Inheritance
import HostCall.Proofs.Callable.Effects
import HostCall.Proofs.Callable.Entry
import HostCall.Proofs.Store.Checkouts
import HostCall.Proofs.Callable.Checkouts
import HostCall.Proofs.Conversion.Builtin
import HostCall.Proofs.Overload.Declared
import HostCall.Proofs.Callable.Handover
import HostCall.Proofs.Callable.Readable
import HostCall.Proofs.Store.Reach
import HostCall.Proofs.Store.Copy
import HostCall.Proofs.Callable.Isolation
import HostCall.Proofs.Callable.Registration
import HostCall.Proofs.Overload.Classification
import HostCall.Proofs.Store.Reads
import HostCall.Proofs.Callable.Frozen
import HostCall.Proofs.Conversion.Roundtrip
import HostCall.Proofs.Store.Equality
import HostCall.Proofs.Overload.Bounds
import HostCall.Proofs.Callable.CountReport
import HostCall.Proofs.Conversion.Acceptance
import HostCall.Proofs.Callable.Abstract
import HostCall.Proofs.Callable.Routing
import HostCall.Proofs.Overload.Commutation
import HostCall.Proofs.Call.Access
import HostCall.Proofs.Store.Positions
import HostCall.Proofs.Store.DeepCopy
import HostCall.Proofs.Overload.Consumption
import HostCall.Proofs.Overload.Conflicts
import HostCall.Proofs.Conversion.History
import HostCall.Proofs.Store.Mirrors
import HostCall.Proofs.Callable.Values
import HostCall.Proofs.Environment.Log
import HostCall.Proofs.Callable.Reports
import HostCall.Proofs.Fingerprint.Mixing
