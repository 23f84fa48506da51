import JavaBridge.Art.Dispatch
import JavaBridge.Art.HeapInstances
import JavaBridge.Art.HookTableLaw
import JavaBridge.Art.Hooks
import JavaBridge.Art.Jdwp
import JavaBridge.Art.JdwpLaw
import JavaBridge.Art.MethodLayout
import JavaBridge.Art.PrettyMethod
import JavaBridge.Art.Registry
import JavaBridge.Art.Replace
import JavaBridge.Art.RuntimeDetection
import JavaBridge.Art.ScopeDiscipline
import JavaBridge.Art.Synchronize
import JavaBridge.Art.Text
import JavaBridge.Descriptor.Bytes
import JavaBridge.Descriptor.FromName
import JavaBridge.Error
import JavaBridge.Hook.Balance
import JavaBridge.Hook.Capture
import JavaBridge.Hook.ManagedStack
import JavaBridge.Hook.Recovery
import JavaBridge.Java.CallArgs
import JavaBridge.Java.Handle
import JavaBridge.Java.Members
import JavaBridge.Java.ObjectArray
import JavaBridge.Java.Temporaries
import JavaBridge.Library.Machine
import JavaBridge.Library.Scan
import JavaBridge.MainThread.Order
import JavaBridge.Metadata.ClassNames
import JavaBridge.Metadata.Visible
import JavaBridge.MethodQuery.Agreement
import JavaBridge.MethodQuery.Characters
import JavaBridge.MethodQuery.Parse
import JavaBridge.Overload.Agreement
import JavaBridge.Perform.Return
import JavaBridge.Perform.Startup
import JavaBridge.Replacement.Closing
import JavaBridge.Replacement.Drain
import JavaBridge.Replacement.FailedRevert
import JavaBridge.Replacement.Teardown
import JavaBridge.RunnableThread.Build
import JavaBridge.RunnableThread.Simulation
import JavaBridge.Trampoline.CodeSize
import JavaBridge.Trampoline.Thunk
import JavaBridge.Vm.Attachment
import JavaBridge.Vm.Runtime
