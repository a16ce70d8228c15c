import ThingOS.Abi.RuntimeCell
import ThingOS.Compositor.ActiveWindow
import ThingOS.Compositor.BmpRoundTrip
import ThingOS.Compositor.CellGrid
import ThingOS.Compositor.CursorSprite
import ThingOS.Compositor.HitTest
import ThingOS.Compositor.PartialRepaint
import ThingOS.Compositor.Presentation
import ThingOS.Compositor.TiledBlit
import ThingOS.Compositor.WidgetHit
import ThingOS.Drivers.DeadKeys
import ThingOS.Drivers.KeyFraming
import ThingOS.Drivers.Modifiers
import ThingOS.Drivers.MouseMovement
import ThingOS.Host.InitialState
import ThingOS.Host.Resize
import ThingOS.Host.Revisions
import ThingOS.Kernel.Drivers.DmaCompletion
import ThingOS.Kernel.Drivers.InputBuffer
import ThingOS.Kernel.Graph.EdgeIdentity
import ThingOS.Kernel.Graph.JournalReplay
import ThingOS.Kernel.Graph.Links
import ThingOS.Kernel.Graph.Noninterference
import ThingOS.Kernel.Graph.Revisions
import ThingOS.Kernel.Mm.GeneralFrames
import ThingOS.Kernel.Mm.HeapAllocators
import ThingOS.Kernel.Mm.PageTableFrames
import ThingOS.Kernel.RequestDecoding
import ThingOS.Kernel.Task.LoadPermissions
import ThingOS.Kernel.Task.LoadRobustness
import ThingOS.Kernel.Task.SpawnByName
import ThingOS.Kernel.Task.TaskContext
import ThingOS.Userland.Replies
import ThingOS.Userland.Spelling
import ThingOS.Userland.WatchFilter
import ThingOS.Widgets.Listbox
