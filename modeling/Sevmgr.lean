import Sevmgr.Library.SortedMap
import Sevmgr.Library.NearestFree
import Sevmgr.Library.Schedule
import Sevmgr.Library.WhileLoop
import Sevmgr.Library.Run
import Sevmgr.Library.Register
import Sevmgr.Library.Tape
import Sevmgr.Library.Regex
import Sevmgr.Model.Stdair
import Sevmgr.Model.EventQueue
import Sevmgr.Model.EventQueueManager
import Sevmgr.Model.Session
import Sevmgr.Model.Sample
import Sevmgr.Model.Boost
import Sevmgr.Model.SampleBoost
import Sevmgr.Model.DateTimeReader
import Sevmgr.Model.SelectCommand
import Sevmgr.Model.Numbers
import Sevmgr.Model.Listing
import Sevmgr.Model.Simulation
import Sevmgr.Model.Interactive
import Sevmgr.Model.SampleTerminal
import Sevmgr.Queue.AddEvent
import Sevmgr.Queue.Retries
import Sevmgr.Queue.PopEvent
import Sevmgr.Queue.Statuses
import Sevmgr.Queue.Delays
import Sevmgr.Queue.TotalRetries
import Sevmgr.Sessions.Happenings
import Sevmgr.Sessions.Pending
import Sevmgr.Sessions.ManagerPop
import Sevmgr.Sessions.CurrentNumbers
import Sevmgr.Sessions.Totals
import Sevmgr.Sessions.StatusOrder
import Sevmgr.Sessions.Conservation
import Sevmgr.Sessions.Ledger
import Sevmgr.Sessions.Clock
import Sevmgr.Sessions.FirstCome
import Sevmgr.Sessions.Chronology
import Sevmgr.Sessions.Delays
import Sevmgr.Sessions.Selection
import Sevmgr.Sessions.Running
import Sevmgr.Sessions.Runs
import Sevmgr.Sessions.Lookup
import Sevmgr.Sessions.Replay
import Sevmgr.Sessions.Pops
import Sevmgr.Sessions.Listings
import Sevmgr.Sessions.Draining
import Sevmgr.Sessions.SampleQueue
import Sevmgr.Reader.Tokens
import Sevmgr.Reader.Components
import Sevmgr.Reader.Rejection
import Sevmgr.Reader.Writing
import Sevmgr.Reader.RoundTrip
import Sevmgr.Reader.InRange
import Sevmgr.Reader.Selected
import Sevmgr.Interactive.Asked
import Sevmgr.Interactive.Playing
import Sevmgr.Interactive.Start
import Sevmgr.Interactive.Transcripts
import Sevmgr.Interactive.Player
import Sevmgr.Interactive.Typed
