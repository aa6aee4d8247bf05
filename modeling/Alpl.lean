import Alpl.Properties.Accepting
import Alpl.Properties.Callbacks
import Alpl.Properties.ClientDelivery
import Alpl.Properties.ClientTeardown
import Alpl.Properties.CompletionPort
import Alpl.Properties.ConnectionMap
import Alpl.Properties.Delivery
import Alpl.Properties.ElapsedMonths
import Alpl.Properties.ElapsedText
import Alpl.Properties.EndpointText
import Alpl.Properties.ErrorText
import Alpl.Properties.LengthPrefix
import Alpl.Properties.LifeCycle
import Alpl.Properties.LockDiscipline
import Alpl.Properties.Ownership
import Alpl.Properties.PartialSends
import Alpl.Properties.Progress
import Alpl.Properties.PublicTable
import Alpl.Properties.QueueHistory
import Alpl.Properties.QueueLock
import Alpl.Properties.QueueProgress
import Alpl.Properties.QueueRest
import Alpl.Properties.QueueSignals
import Alpl.Properties.Rest
import Alpl.Properties.SendResult
import Alpl.Properties.Sending
import Alpl.Properties.SessionRefinement
import Alpl.Properties.SharedContainers
import Alpl.Properties.Shutdown
import Alpl.Properties.SocketsClosed
import Alpl.Properties.StartAndStop
import Alpl.Properties.UnsetMembers
import Alpl.Properties.Workers
