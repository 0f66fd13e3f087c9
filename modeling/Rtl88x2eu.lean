import Rtl88x2eu.Recv.ReorderSafety
import Rtl88x2eu.Recv.Conservation
import Rtl88x2eu.Coop.StationLifetime
import Rtl88x2eu.Coop.DrainConservation
import Rtl88x2eu.Coop.KernelPath
import Rtl88x2eu.Coop.KeyCache
import Rtl88x2eu.Coop.Channel
import Rtl88x2eu.Coop.Statistics
import Rtl88x2eu.Coop.PacketNumbers
import Rtl88x2eu.Coop.RejectedFrames
import Rtl88x2eu.Coop.FrontEnds
import Rtl88x2eu.Coop.Injection
import Rtl88x2eu.Recv.Renegotiation
import Rtl88x2eu.Recv.MgmtProtect
import Rtl88x2eu.Recv.ReorderTimer
import Rtl88x2eu.Efuse.RoundTrip
import Rtl88x2eu.Efuse.CommandState
import Rtl88x2eu.Cam.Ownership
import Rtl88x2eu.Cmd.Lifecycle
import Rtl88x2eu.Xmit.Nonces
import Rtl88x2eu.Recv.DefragIntegrity
import Rtl88x2eu.Xmit.MgntXmit
import Rtl88x2eu.Xmit.TxQueues
import Rtl88x2eu.Xmit.PowerSave
import Rtl88x2eu.Lib.Lending
import Rtl88x2eu.Xmit.Waiters
import Rtl88x2eu.Xmit.Radiotap
import Rtl88x2eu.Xmit.Monitor
import Rtl88x2eu.Rm.Fsm
import Rtl88x2eu.Rm.System
import Rtl88x2eu.Rm.Sound
import Rtl88x2eu.Rm.Ownership
import Rtl88x2eu.Recv.DefragLaw
import Rtl88x2eu.Recv.GroupReplay
import Rtl88x2eu.Coop.PnAgreement
import Rtl88x2eu.Coop.HelperArray
import Rtl88x2eu.Coop.NonqosCache
import Rtl88x2eu.Recv.UsbParse
import Rtl88x2eu.Recv.UsbStreams
import Rtl88x2eu.Recv.RadiotapHeader
import Rtl88x2eu.Lib.Loop
import Rtl88x2eu.Recv.Amsdu
import Rtl88x2eu.Mesh.Frames
import Rtl88x2eu.Ie.Search
import Rtl88x2eu.Ie.Edit
import Rtl88x2eu.Ie.WpsAttr
import Rtl88x2eu.Ie.Rsne
import Rtl88x2eu.Ie.ParseElems
import Rtl88x2eu.Sta.Aid
import Rtl88x2eu.Efuse.Bounds
import Rtl88x2eu.Efuse.Agreement
import Rtl88x2eu.Efuse.Torn
import Rtl88x2eu.Efuse.Dumps
import Rtl88x2eu.Mesh.Discovery
import Rtl88x2eu.Ie.Rates
import Rtl88x2eu.Ie.ExtCap
import Rtl88x2eu.Xmit.Layout
import Rtl88x2eu.Lib.Keystream
import Rtl88x2eu.Crypto.Arcfour
import Rtl88x2eu.Crypto.Tkip
import Rtl88x2eu.Crypto.Michael
import Rtl88x2eu.Crypto.Gcm
import Rtl88x2eu.Xmit.Mpdu
import Rtl88x2eu.Crypto.RoundTrip
import Rtl88x2eu.Lib.Traced
import Rtl88x2eu.Crypto.Omac
import Rtl88x2eu.Recv.BipVerify
import Rtl88x2eu.Crypto.BipAgreement
import Rtl88x2eu.Recv.BlockAckReq
import Rtl88x2eu.Nat25.Checksum
import Rtl88x2eu.Scan.BeaconCheck
import Rtl88x2eu.Scan.AbsorbSsid
import Rtl88x2eu.Sta.Macid
import Rtl88x2eu.Sta.Table
import Rtl88x2eu.Scan.Table
import Rtl88x2eu.Xmit.Classify
import Rtl88x2eu.Ie.BeaconWalks
import Rtl88x2eu.Nat25.RelayTag
import Rtl88x2eu.Nat25.Db
import Rtl88x2eu.Nat25.Shortcut
import Rtl88x2eu.Scan.Roaming
import Rtl88x2eu.Sta.Unassoc
import Rtl88x2eu.Mesh.Forward
import Rtl88x2eu.Sta.Protection
import Rtl88x2eu.Cmd.Waited
import Rtl88x2eu.Ie.BcnEdit
import Rtl88x2eu.Regd.CountryIe
import Rtl88x2eu.Sta.OpNum
import Rtl88x2eu.Crypto.Crc32
import Rtl88x2eu.Coop.NonqosRing
import Rtl88x2eu.Mesh.ReceivedCache
import Rtl88x2eu.Mesh.Airtime
import Rtl88x2eu.Mesh.Gates
import Rtl88x2eu.Lib.CountedTable
import Rtl88x2eu.Mesh.PathCount
import Rtl88x2eu.Mesh.Freshness
import Rtl88x2eu.Lib.ElementLoop
import Rtl88x2eu.Rm.Intake
import Rtl88x2eu.Nat25.Translation
import Rtl88x2eu.Recv.RadiotapWalk
import Rtl88x2eu.Recv.Ethernet
import Rtl88x2eu.Xmit.BulkTransfer
