import LddExample.Mmu.Image
import LddExample.ScaleUsb.RxStream
import LddExample.ScaleUsb.TxConserve
import LddExample.ScaleUsb.Locks
import LddExample.ScaleUsb.Setup
import LddExample.ListHead.Notifier
import LddExample.ListHead.Timer
import LddExample.ListHead.ReadResult
import LddExample.Framebuffer.Bmp
import LddExample.Framebuffer.RoundTrip
import LddExample.Framebuffer.Grab
import LddExample.Framebuffer.InBounds
import LddExample.ScaleUsb.Response
import LddExample.ScaleUsb.ResponseBounds
import LddExample.ScaleUsb.WriteReport
import LddExample.ScaleUsb.SoftReset
import LddExample.ScaleUsb.Fsync
import LddExample.ScaleUsb.ReadLoop
import LddExample.Mmu.Coverage
import LddExample.Mmu.Splitting
import LddExample.Mmu.Granularity
import LddExample.Mmu.Comment
import LddExample.Spi.Model
import LddExample.Spi.SafeWrite
import LddExample.Spi.Chunks
import LddExample.Spi.ReadBack
import LddExample.Spi.BitOrder
import LddExample.ScaleUsb.WriteEnd
import LddExample.Net.Options
import LddExample.Net.References
import LddExample.Net.Capture
import LddExample.ScaleUsb.PollRead
import LddExample.ScaleUsb.Bind
import LddExample.ScaleUsb.Endpoints
import LddExample.Tap.Dissect
import LddExample.C2port.Boards
import LddExample.C2port.Register
import LddExample.C2port.Flash
import LddExample.Composite.Safe
import LddExample.Composite.Autoconf
import LddExample.Composite.Lifecycle
import LddExample.TimedGpio.Pulse
import LddExample.TimedGpio.Probe
import LddExample.QfpFuse.Program
