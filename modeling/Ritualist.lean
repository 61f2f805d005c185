import Ritualist.Pausing
import Ritualist.Representation
import Ritualist.Registration
import Ritualist.SingleFlight
import Ritualist.Collection
import Ritualist.Timing
import Ritualist.EnabledTime
import Ritualist.OneShots
import Ritualist.Dispatching
import Ritualist.Resuming
import Ritualist.Independence
import Ritualist.WallClock
import Ritualist.Conservation
import Ritualist.StaleAcks
import Ritualist.Sampling
import Ritualist.Replies
import Ritualist.Shutdown
import Ritualist.Coalescing
import Ritualist.Firing
import Ritualist.Progress
import Ritualist.Overflow
import Ritualist.Completion
import Ritualist.Occupancy
import Ritualist.Acknowledging
import Ritualist.Polling
import Ritualist.Linearization
import Ritualist.Returning
import Ritualist.Clients
import Ritualist.Lifecycle
import Ritualist.Stopping
import Ritualist.Ownership
import Ritualist.Responsiveness
import Ritualist.Bookkeeping
import Ritualist.Translation
import Ritualist.TestClock
import Ritualist.ShownProgress
import Ritualist.RunRate
import Ritualist.Backpressure
import Ritualist.Dropping
