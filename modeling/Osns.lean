import Osns.Verification.Channel.Transfer
import Osns.Verification.Channel.Table
import Osns.Verification.Fuse.Handle
import Osns.Verification.Fuse.OpenHeader
import Osns.Verification.Fuse.Readdir
import Osns.Verification.Fuse.Reply
import Osns.Verification.HostPattern
import Osns.Verification.KeyExchange.Derivation
import Osns.Verification.Message.Reads
import Osns.Verification.NameOrder
import Osns.Verification.Namelist
import Osns.Verification.Packet.Chacha
import Osns.Verification.Packet.Generic
import Osns.Verification.PathCompare
import Osns.Verification.Readers.Runs
import Osns.Verification.Receive.Bounds
import Osns.Verification.Receive.Failure
import Osns.Verification.Receive.Greeter
import Osns.Verification.Send.Encryption
import Osns.Verification.Send.Queue
import Osns.Verification.Sftp.Delivery
import Osns.Verification.Sftp.Names
import Osns.Verification.Sftp.Replies
import Osns.Verification.Sftp.SharedDirectory
import Osns.Verification.SftpServer.Codes
import Osns.Verification.SftpServer.Framing
import Osns.Verification.SftpServer.Init
import Osns.Verification.SftpServer.Prefix
import Osns.Verification.SftpServer.Transfer
import Osns.Verification.Skiplist.Runs
import Osns.Verification.Socket
import Osns.Verification.Timers.Arithmetic
import Osns.Verification.Timers.Runs
import Osns.Verification.Timers.Threads
import Osns.Verification.Transport
import Osns.Verification.Userauth.Admission
import Osns.Verification.Userauth.Client
import Osns.Verification.Sftp.Attributes
