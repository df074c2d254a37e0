import Nostalux.Tcp.EndOfStream
import Nostalux.Net.Queue
import Nostalux.Net.Cancel
import Nostalux.Elf.Exact
import Nostalux.App.Moves
import Nostalux.Network.Ownership
import Nostalux.Network.Redirects
import Nostalux.App.Ownership
import Nostalux.App.Contents
import Nostalux.Fs.Enumeration
import Nostalux.Fs.Untrusted
import Nostalux.Fs.Recovery
import Nostalux.Net.Checksum
import Nostalux.Tcp.Blocking
import Nostalux.Tcp.Retransmission
import Nostalux.Memtest.Detection
import Nostalux.Net.Aliases
import Nostalux.Net.Timers
import Nostalux.Net.Options
import Nostalux.Net.Neighbours
import Nostalux.Network.Resolution
import Nostalux.Network.GetRequest
import Nostalux.Heap.Integrity
import Nostalux.Pci.Bars
import Nostalux.Keyboard
import Nostalux.App.Browser
import Nostalux.Devices
