import Enlil.Memory.Map
import Enlil.Hal.Npt.Mapper
import Enlil.Hal.Npt.DirtyLog
import Enlil.Memory.Map.Firmware
import Enlil.Boot.Pic
import Enlil.Boot.Apic
import Enlil.Boot.Insn
import Enlil.Boot.Nvme
import Enlil.Boot.Confinement
import Enlil.Boot.Efivars
import Enlil.MgmtProto.Frame
import Enlil.Devices.Interrupt.Lapic
import Enlil.Devices.Interrupt.IoApic
import Enlil.Devices.Xhci.Termination
import Enlil.Devices.Xhci.EventProtocol
import Enlil.Core.Vm
import Enlil.Core.PreemptWatchdog
import Enlil.Platform.AsyncRt
import Enlil.Platform.Mutex
import Enlil.Platform.Channel
import Enlil.Devices.Pcie.RootComplex
import Enlil.Devices.Net.Switch
import Enlil.Devices.Storage.Qcow.Shared
import Enlil.Config.Isolation
import Enlil.Boot.Confinement.Atomic
import Enlil.Memory.BuddyAlign
import Enlil.Memory.HostMm.Undo
import Enlil.Boot.Timer
import Enlil.Devices.Bridge.Transport
import Enlil.Devices.Interrupt.PicRuns
import Enlil.Devices.Xhci.Commands
import Enlil.Devices.Timer.Rtc
import Enlil.Devices.Timer.PitPorts
import Enlil.Devices.Storage.Nvme
import Enlil.Platform.Reactor
import Enlil.Devices.Bus
