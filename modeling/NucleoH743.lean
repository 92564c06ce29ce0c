import NucleoH743.Lib.Run
import NucleoH743.Lib.Coop
import NucleoH743.Lib.CStr
import NucleoH743.Lib.Prog
import NucleoH743.FatFs.Volume
import NucleoH743.Tftp.Utils
import NucleoH743.Tftp.Server
import NucleoH743.Proofs.FatFs.Calls
import NucleoH743.Proofs.Tftp.Session
import NucleoH743.Proofs.Tftp.Rrq
import NucleoH743.Proofs.Tftp.Wrq
import NucleoH743.Proofs.Tftp.Isolation
import NucleoH743.CmdTrmnl.Process
import NucleoH743.CmdTrmnl.Handlers
import NucleoH743.Proofs.CmdTrmnl.Dispatch
import NucleoH743.Proofs.CmdTrmnl.History
import NucleoH743.Flash.Driver
import NucleoH743.Flash.Chip
import NucleoH743.Proofs.Flash.Interleaving
import NucleoH743.FatFs.Diskio
import NucleoH743.Proofs.FatFs.Reentrancy
import NucleoH743.Proofs.FatFs.DiskStatus
import NucleoH743.Ftp.Cmds
import NucleoH743.Ftp.Ftpd
import NucleoH743.Proofs.Ftp.Requests
import NucleoH743.Proofs.Ftp.SelectSet
import NucleoH743.Proofs.Ftp.Segmentation
import NucleoH743.Proofs.Ftp.DataSocket
import NucleoH743.Proofs.FatFs.Locks
import NucleoH743.Proofs.Ftp.OpenObjects
import NucleoH743.Proofs.Ftp.Transfer
import NucleoH743.Proofs.Ftp.Upload
import NucleoH743.Proofs.Ftp.Restart
import NucleoH743.Proofs.Uart.Stall
import NucleoH743.Eth.Ethernetif
import NucleoH743.Proofs.Eth.ZeroCopy
import NucleoH743.Proofs.Tftp.Effects
import NucleoH743.Proofs.Tftp.WriteAck
import NucleoH743.Proofs.Tftp.ReadEnd
import NucleoH743.Proofs.Tftp.BlockNumbers
import NucleoH743.Proofs.Tftp.Conservation
import NucleoH743.FatFs.Api
import NucleoH743.Ftp.Calls
import NucleoH743.Html.FsCustom
import NucleoH743.Lib.Threads
import NucleoH743.Tftp.Calls
import NucleoH743.Proofs.FatFs.Mounts
import NucleoH743.Proofs.Tftp.Calls
import NucleoH743.Services.System
import NucleoH743.Proofs.Ftp.Calls
import NucleoH743.Proofs.Services.SharedVolume
import NucleoH743.Proofs.Services.Alone
import NucleoH743.Lib.Ring
import NucleoH743.Proofs.Uart.Receive
import NucleoH743.Proofs.Ftp.CurrentDir
import NucleoH743.Proofs.Ftp.Resolution
import NucleoH743.Proofs.Ftp.Buffers
import NucleoH743.Tftp.Reads
import NucleoH743.Proofs.Tftp.Reads
import NucleoH743.Proofs.Tftp.Foreign
import NucleoH743.Lib.Choice
import NucleoH743.Flash.MemoryMapped
import NucleoH743.Proofs.Flash.Device
import NucleoH743.Proofs.Flash.InterfaceMode
import NucleoH743.Proofs.CmdTrmnl.Delivery
import NucleoH743.CmdTrmnl.Variables
import NucleoH743.Proofs.CmdTrmnl.Safety
import NucleoH743.Lib.Blocks
import NucleoH743.Lib.Plan
import NucleoH743.Proofs.Flash.Pages
import NucleoH743.Proofs.Flash.Sectors
import NucleoH743.Proofs.FatFs.RoundTrip
import NucleoH743.FatFs.OpenFile
import NucleoH743.Proofs.Html.Streaming
import NucleoH743.Html.Heap
import NucleoH743.Proofs.Html.Heap
import NucleoH743.Eth.Link
import NucleoH743.Proofs.Eth.Link
import NucleoH743.Ftp.ConnList
import NucleoH743.Proofs.Ftp.ConnList
import NucleoH743.Eth.InputTask
import NucleoH743.Proofs.Eth.InputTask
import NucleoH743.Flash.Task
import NucleoH743.Proofs.Flash.CommandQueue
import NucleoH743.Ftp.Program
import NucleoH743.Proofs.Ftp.Replies
import NucleoH743.Proofs.Ftp.Download
import NucleoH743.Proofs.Ftp.Program
import NucleoH743.Proofs.Ftp.DirFrame
import NucleoH743.Proofs.Ftp.Parent
import NucleoH743.Proofs.Ftp.Arguments
import NucleoH743.Ftp.Reply
import NucleoH743.Proofs.Ftp.ReplyText
import NucleoH743.Proofs.Ftp.DataAddress
import NucleoH743.Proofs.Flash.Polling
import NucleoH743.FatFs.SectorIo
import NucleoH743.Proofs.FatFs.SectorLoops
import NucleoH743.Proofs.Flash.Init
import NucleoH743.Lib.Numeral
import NucleoH743.Proofs.CmdTrmnl.Numbers
import NucleoH743.CmdTrmnl.Registry
import NucleoH743.Core.Uptime
import NucleoH743.Proofs.Core.Uptime
import NucleoH743.Proofs.CmdTrmnl.Registry
import NucleoH743.Proofs.CmdTrmnl.Surplus
import NucleoH743.Flash.Damp
import NucleoH743.Proofs.Flash.Damp
import NucleoH743.Proofs.CmdTrmnl.HelpLookup
import NucleoH743.Eth.Transmit
import NucleoH743.Proofs.Eth.Transmit
import NucleoH743.Services.Memory
import NucleoH743.Proofs.Services.Mounted
import NucleoH743.Proofs.Services.Allocation
import NucleoH743.Lib.LittleEndian
import NucleoH743.FatFs.Mkfs
import NucleoH743.Lib.Extents
import NucleoH743.Proofs.FatFs.Partitions
import NucleoH743.Proofs.FatFs.Geometry
import NucleoH743.Lib.WriteBack
import NucleoH743.Lib.Bits
import NucleoH743.Lib.Chains
import NucleoH743.Lib.Scatter
import NucleoH743.FatFs.Window
import NucleoH743.FatFs.Clusters
import NucleoH743.FatFs.File
import NucleoH743.FatFs.Files
import NucleoH743.Proofs.FatFs.Window
import NucleoH743.Proofs.FatFs.FatEntries
import NucleoH743.Proofs.FatFs.Chains
import NucleoH743.Proofs.FatFs.FileLayout
import NucleoH743.Proofs.FatFs.FileRead
import NucleoH743.Proofs.FatFs.FileWrite
import NucleoH743.Proofs.FatFs.FileSeek
import NucleoH743.Proofs.FatFs.FileSync
import NucleoH743.Proofs.FatFs.Files
import NucleoH743.FatFs.Names
import NucleoH743.FatFs.Follow
import NucleoH743.Lib.Padded
import NucleoH743.Proofs.FatFs.Names
import NucleoH743.Proofs.FatFs.Follow
