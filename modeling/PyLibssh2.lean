import PyLibssh2.Base.Run
import PyLibssh2.Base.Loop
import PyLibssh2.Base.Pieces
import PyLibssh2.Base.Blocks
import PyLibssh2.Base.Lifetime
import PyLibssh2.Base.HashSet
import PyLibssh2.Ext.Object
import PyLibssh2.Ext.Close
import PyLibssh2.Ext.Module
import PyLibssh2.Ext.Step
import PyLibssh2.Ext.Inv
import PyLibssh2.Ext.Use
import PyLibssh2.Ext.Young
import PyLibssh2.Ext.Frame
import PyLibssh2.Ext.Leaf
import PyLibssh2.Ext.Shut
import PyLibssh2.Ext.CloseSession
import PyLibssh2.Ext.Drop
import PyLibssh2.Ext.Grow
import PyLibssh2.Ext.Opening
import PyLibssh2.Ext.Calls
import PyLibssh2.Ext.Held
import PyLibssh2.Ext.Own
import PyLibssh2.Ext.Dead
import PyLibssh2.Ext.Forward
import PyLibssh2.Scp.Send
import PyLibssh2.Scp.Recv
import PyLibssh2.Sftp.Remote
import PyLibssh2.Sftp.Rename
import PyLibssh2.Sftp.Copy
import PyLibssh2.Sftp.Stat
import PyLibssh2.Sftp.ListFiles
import PyLibssh2.Channel.Read
import PyLibssh2.Channel.ReadAll
import PyLibssh2.Transfer.Opened
import PyLibssh2.Transfer.Get
import PyLibssh2.Transfer.Put
import PyLibssh2.Transfer.Copy
import PyLibssh2.Transfer.Send
import PyLibssh2.Transfer.Recv
import PyLibssh2.Transfer.Sets
import PyLibssh2.Auth.Agent
import PyLibssh2.Threads.Kbd
import PyLibssh2.Threads.Sections
import PyLibssh2.Threads.Channel
import PyLibssh2.Facade.Mv
import PyLibssh2.Session.Callback
import PyLibssh2.Session.Hostkey
import PyLibssh2.Sftp.Seek
import PyLibssh2.Ext.Accounts
import PyLibssh2.Ext.Compare
import PyLibssh2.Ext.Orphan
import PyLibssh2.Ext.Reclaim
import PyLibssh2.Ext.Socket
import PyLibssh2.Session.MethodPref
import PyLibssh2.Sftp.Mode
import PyLibssh2.Transfer.Metadata
import PyLibssh2.Ext.Change
import PyLibssh2.Ext.Outcome
import PyLibssh2.Ext.Ledger
import PyLibssh2.Ext.Exact
import PyLibssh2.Ext.Isolated
import PyLibssh2.Base.Relay
import PyLibssh2.Transfer.Route
import PyLibssh2.Transfer.Commands
import PyLibssh2.Transfer.Runs
import PyLibssh2.Base.Cells
import PyLibssh2.Errors.Report
import PyLibssh2.Errors.Threads
import PyLibssh2.Base.Slots
import PyLibssh2.Threads.Handles
import PyLibssh2.Threads.Release
import PyLibssh2.Base.Since
import PyLibssh2.Threads.Closing
import PyLibssh2.Threads.Leftover
import PyLibssh2.Threads.Alone
import PyLibssh2.Sftp.ReadDir
import PyLibssh2.Facade.Batches
