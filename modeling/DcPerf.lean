import DcPerf.Library.History
import DcPerf.LiveUpdate.Proofs.Completion
import DcPerf.LiveUpdate.Proofs.Controllers
import DcPerf.LiveUpdate.Proofs.Replay
import DcPerf.LiveUpdate.Proofs.Handover
import DcPerf.LiveUpdate.Proofs.HandoverRuns
import DcPerf.LiveUpdate.Proofs.Creation
import DcPerf.LiveUpdate.Proofs.CreationRuns
import DcPerf.LiveUpdate.Commands
import DcPerf.LiveUpdate.Proofs.Commands
import DcPerf.Library.RefCount
import DcPerf.LiveUpdate.Proofs.Release
import DcPerf.LiveUpdate.Proofs.ReleaseRuns
import DcPerf.Library.FirstWins
import DcPerf.LiveUpdate.Target
import DcPerf.LiveUpdate.Proofs.Provision
import DcPerf.LiveUpdate.Proofs.Reproduction
import DcPerf.LiveUpdate.Proofs.Restart
import DcPerf.Library.BitPoly
import DcPerf.Library.ShiftRegister
import DcPerf.Ethernet.Fcs
import DcPerf.Ethernet.Proofs.Fcs
import DcPerf.Library.ShellNumber
import DcPerf.Virtio.BindUnbind
import DcPerf.Virtio.Proofs.BindUnbind
import DcPerf.Library.Script
import DcPerf.Pci.Address
import DcPerf.Virtio.SriovStub
import DcPerf.Virtio.Proofs.SriovStub
import DcPerf.Pci.SetCmplto
import DcPerf.Pci.Proofs.SetCmplto
import DcPerf.Backtrace.Bfd
import DcPerf.Backtrace.Lines
import DcPerf.Backtrace.Print
import DcPerf.Backtrace.Proofs.Lines
import DcPerf.Backtrace.Proofs.Capacity
import DcPerf.Backtrace.Proofs.Resources
import DcPerf.Backtrace.Proofs.Expansion
import DcPerf.LiveUpdate.Lifespans
import DcPerf.LiveUpdate.Proofs.Lifespans
import DcPerf.Library.Calls
import DcPerf.Tracing.Maps
import DcPerf.Tracing.Unplug
import DcPerf.Tracing.Proofs.Unplug
import DcPerf.Tracing.Command
import DcPerf.Library.Words
import DcPerf.Tracing.Proofs.Command
import DcPerf.Tracing.Proofs.Status
import DcPerf.Backtrace.CallSite
import DcPerf.Backtrace.Proofs.CallSite
import DcPerf.Library.LastWins
import DcPerf.Backtrace.Proofs.Modules
import DcPerf.Library.Groups
import DcPerf.Virtio.PassThrough
import DcPerf.Virtio.Proofs.PassThrough
import DcPerf.Virtio.Proofs.SriovFaults
import DcPerf.LiveUpdate.Inventory
import DcPerf.LiveUpdate.Proofs.Inventory
import DcPerf.Pci.Arguments
import DcPerf.Pci.Proofs.Arguments
import DcPerf.Ethernet.Proofs.TwoBits
import DcPerf.PciDebug.Proofs.Dump
import DcPerf.PciDebug.Proofs.Main
import DcPerf.PciDebug.Proofs.Pcimem
import DcPerf.Soak.Proofs.SnapService
import DcPerf.Library.Protocol
import DcPerf.Soak.Proofs.RebootAttach
import DcPerf.Soak.Proofs.Endings
import DcPerf.Library.Scopes
import DcPerf.Soak.HostReboot
import DcPerf.Soak.Hotplug
import DcPerf.Soak.Proofs.HostReboot
import DcPerf.Soak.Proofs.Hotplug
import DcPerf.Tracing.Marks
import DcPerf.Tracing.Proofs.Service
import DcPerf.Tracing.Proofs.Teardown
