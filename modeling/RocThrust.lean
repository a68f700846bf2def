import RocThrust.IntegerMath.Types
import RocThrust.IntegerMath.DivideRi
import RocThrust.IntegerMath.Log2
import RocThrust.Search.Host
import RocThrust.Search.Rocprim
import RocThrust.Search.Refinement
import RocThrust.Search.Device
import RocThrust.Search.Dispatch
import RocThrust.Search.Resources
import RocThrust.Testing.RuntimeStaticAssert
import RocThrust.Testing.TestRun
