import Pcopy.Lib.Exec
import Pcopy.Lib.SegmentedStream
import Pcopy.Lib.BigEndian
import Pcopy.Lib.Buffer
import Pcopy.Lib.LexicalWalk
import Pcopy.Lib.SharedFile
import Pcopy.Path
import Pcopy.IoError
import Pcopy.FileSystem
import Pcopy.Server.Task
import Pcopy.Server.CreateParentFolder
import Pcopy.Server.SaveFile
import Pcopy.Server.Reading
import Pcopy.Server.PathField
import Pcopy.Server.Footprint
import Pcopy.Server.Connection
import Pcopy.Server.DataLoop
import Pcopy.Server.Crc32
import Pcopy.Server.SaveSoundness
import Pcopy.Server.ConcurrentSaves
import Pcopy.Client.SendFile
import Pcopy.Transfer
import Pcopy.Server.Containment
import Pcopy.Relay.Cursor
import Pcopy.Relay.Peer
import Pcopy.Relay.Frame
import Pcopy.Relay.FrameHelper
import Pcopy.Relay.Connection
import Pcopy.Relay.Delivery
import Pcopy.Relay.Cache
import Pcopy.Relay.Server
import Pcopy.Relay.Serving
import Pcopy.Relay.Registration
import Pcopy.Relay.BufWriter
import Pcopy.Lib.Transition
import Pcopy.Relay.System
import Pcopy.Relay.SystemInvariants
import Pcopy.Server.PathGrammar
import Pcopy.Server.ResultCode
import Pcopy.Lib.BufferedReads
import Pcopy.Server.Overrun
import Pcopy.Server.LoopArithmetic
import Pcopy.Server.FrameRun
import Pcopy.FullBuffer
import Pcopy.Client.SendFolder
import Pcopy.Relay.Sender
import Pcopy.Relay.Moves
import Pcopy.Relay.History
import Pcopy.Relay.Course
import Pcopy.Relay.Registry
import Pcopy.Relay.Agreement
import Pcopy.Client.FolderTree
import Pcopy.Mirror
import Pcopy.Relay.SilentPeer
import Pcopy.Relay.AckDelivery
import Pcopy.Server.ShortWrite
import Pcopy.Relay.Codec
import Pcopy.Relay.IncrementalReading
import Pcopy.Relay.ProbeReply
import Pcopy.Relay.WaitLoops
import Pcopy.Server.ParentFolder
import Pcopy.Lib.Script
import Pcopy.Server.Calls
import Pcopy.Server.System
import Pcopy.Server.SavedFiles
import Pcopy.Server.Isolation
import Pcopy.Relay.WaitChains
import Pcopy.Relay.OneRequest
import Pcopy.Relay.Bounded
import Pcopy.Relay.Refinement
import Pcopy.FolderServed
import Pcopy.LostConnection
import Pcopy.Relay.Streams
import Pcopy.Lib.ShiftRegister
import Pcopy.Server.Alterations
import Pcopy.Relay.Admission
import Pcopy.Server.MadeFolders
import Pcopy.Relay.Canonical
import Pcopy.Server.Faults
