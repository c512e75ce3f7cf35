import Subspace.Channel.Defs
import Subspace.Channel.Layout
import Subspace.Channel.SlotList
import Subspace.Channel.Offset
import Subspace.Channel.Ccb
import Subspace.Channel.Invariant
import Subspace.Channel.Refine
import Subspace.Channel.Reliable
import Subspace.Client.Read
import Subspace.Client.PubSub
import Subspace.Client.Session
import Subspace.Client.Poll
import Subspace.Client.Shared
import Subspace.Client.TwoParty
