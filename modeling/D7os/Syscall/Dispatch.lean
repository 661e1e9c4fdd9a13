import D7os.Multitasking.Scheduler
import D7os.Memory.Dma
import D7os.Ipc.Faults

/-!
# System call dispatch

`syscall` of `src/syscall/mod.rs`, with `SyscallNumber`, `SyscallErrorCode` and
`ProcessResult` of `d7abi`. The routine number is decoded first; an unknown
number terminates the caller. The handlers that read only registers and kernel
state (`exit`, `get_pid`, `sched_yield`, `ipc_unsubscribe`, `ipc_acknowledge`,
`dma_allocate`, `dma_free`) are modelled here; the others, which read or write
the caller's memory, the entropy pool or the clock, are a parameter,
`otherRoutine`.
-/

namespace D7os

open Ipc

/-- `d7abi::SyscallNumber`. -/
inductive SyscallNumber
  | exit | getPid | debugPrint | exec | random | schedYield | schedSleepNs
  | ipcSubscribe | ipcUnsubscribe | ipcPublish | ipcDeliver | ipcDeliverReply | ipcReceive
  | ipcAcknowledge | ipcSelect | kernelLogRead | irqSetHandler | mmapPhysical
  | dmaAllocate | dmaFree | memAlloc | memDealloc
  deriving DecidableEq, Repr

/-- `SyscallNumber::try_from(u64)`, the discriminants of the `#[repr(u64)]` enum. -/
def SyscallNumber.tryFrom (routine : UInt64) : Option SyscallNumber :=
  match routine.toNat with
  | 0x00 => some .exit
  | 0x01 => some .getPid
  | 0x02 => some .debugPrint
  | 0x30 => some .exec
  | 0x40 => some .random
  | 0x50 => some .schedYield
  | 0x51 => some .schedSleepNs
  | 0x70 => some .ipcSubscribe
  | 0x71 => some .ipcUnsubscribe
  | 0x72 => some .ipcPublish
  | 0x73 => some .ipcDeliver
  | 0x74 => some .ipcDeliverReply
  | 0x75 => some .ipcReceive
  | 0x76 => some .ipcAcknowledge
  | 0x77 => some .ipcSelect
  | 0x80 => some .kernelLogRead
  | 0x84 => some .irqSetHandler
  | 0x90 => some .mmapPhysical
  | 0x92 => some .dmaAllocate
  | 0x93 => some .dmaFree
  | 0x94 => some .memAlloc
  | 0x95 => some .memDealloc
  | _ => none

/-- `d7abi::SyscallErrorCode`, numbered from 0 in order. -/
inductive SyscallErrorCode
  | unknown | unsupported | outOfMemory | emptyListArgument | tooLarge | wouldBlock
  | ipcInvalidTopic | ipcFilterExclusion | ipcDeliveryNoTarget | ipcDeliveryTargetFull
  | ipcDeliveryTargetNack | ipcUnsubscribed | ipcReAcknowledge | ipcPipeReserved
  | ipcPipeSenderTerminated | ipcPermissionError | invalidUtf8 | ptrUnaligned
  | mmapInvalidProtectionFlags | mmapIncorrectAlignment | mmapPermissionError
  deriving DecidableEq, Repr

/-- `Into<u64>` of the `#[repr(u64)]` error code. -/
def SyscallErrorCode.toU64 : SyscallErrorCode → UInt64
  | .unknown => 0
  | .unsupported => 1
  | .outOfMemory => 2
  | .emptyListArgument => 3
  | .tooLarge => 4
  | .wouldBlock => 5
  | .ipcInvalidTopic => 6
  | .ipcFilterExclusion => 7
  | .ipcDeliveryNoTarget => 8
  | .ipcDeliveryTargetFull => 9
  | .ipcDeliveryTargetNack => 10
  | .ipcUnsubscribed => 11
  | .ipcReAcknowledge => 12
  | .ipcPipeReserved => 13
  | .ipcPipeSenderTerminated => 14
  | .ipcPermissionError => 15
  | .invalidUtf8 => 16
  | .ptrUnaligned => 17
  | .mmapInvalidProtectionFlags => 18
  | .mmapIncorrectAlignment => 19
  | .mmapPermissionError => 20

/-- `Into<SyscallErrorCode> for ipc::Error`. -/
def Ipc.Error.code : Error → SyscallErrorCode
  | .InvalidTopic => .ipcInvalidTopic
  | .Unsubscribed => .ipcUnsubscribed
  | .ReAcknowledge => .ipcReAcknowledge
  | .PipeReserved => .ipcPipeReserved
  | .PipeSenderTerminated => .ipcPipeSenderTerminated
  | .Subscription .Exclusion => .ipcFilterExclusion
  | .Delivery .NoSubscriber => .ipcDeliveryNoTarget
  | .Delivery .QueueFull => .ipcDeliveryTargetFull
  | .Delivery .NegativeAcknowledgement => .ipcDeliveryTargetNack
  | .Permission _ => .ipcPermissionError

/-- The variants of `d7abi::process::Error` a system call can produce. -/
inductive ProcessError
  /-- Invalid system call number -/
  | SyscallNumber (routine : UInt64)
  /-- Invalid argument value passed to system call -/
  | SyscallArgument
  /-- Invalid pointer passed to system call -/
  | Pointer (addr : UInt64)
  deriving DecidableEq, Repr

inductive ProcessResult
  /-- The process exited with a return code -/
  | Completed (code : UInt64)
  /-- The process was terminated because an error occurred -/
  | Failed (error : ProcessError)
  deriving DecidableEq, Repr

inductive SyscallResult
  /-- Return a value to caller -/
  | Continue (r : Except UInt64 UInt64)
  /-- Switch to another process immediately, returning a value -/
  | Switch (r : Except UInt64 UInt64) (w : WaitFor)
  /-- Repeat the call once the condition holds -/
  | RepeatAfter (w : WaitFor)
  /-- Terminate current process with status -/
  | Terminate (r : ProcessResult)

structure RawSyscall where
  routine : UInt64
  args : UInt64 × UInt64 × UInt64 × UInt64

/-- The kernel state a system call reads: the scheduler, `IPC` and `DMA_ALLOCATOR`. -/
structure Kernel where
  sched : Scheduler
  ipc : Manager
  dma : DmaAllocator

/-- The handlers not modelled in this module. -/
abbrev OtherRoutine :=
  SyscallNumber → Kernel → ProcessId → RawSyscall → Except Panic (Kernel × SyscallResult)

/-- `try_ipc!` around an `IpcResult` whose events are consumed first. -/
def ipcReturn (k : Kernel) (ipc : Manager) (r : IpcResult Unit) : Kernel × SyscallResult :=
  let k := { k with ipc, sched := k.sched.consumeEvents r.events }
  match r.value with
  | .ok () => (k, .Continue (.ok 0))
  | .error e => (k, .Continue (.error e.code.toU64))

/-- `syscall(sched, process, rsc)`. -/
def syscall (otherRoutine : OtherRoutine) (k : Kernel) (pid : ProcessId) (rsc : RawSyscall) :
    Except Panic (Kernel × SyscallResult) :=
  match SyscallNumber.tryFrom rsc.routine with
  | none => .ok (k, .Terminate (.Failed (.SyscallNumber rsc.routine)))
  | some sc =>
    match sc with
    | .exit => .ok (k, .Terminate (.Completed rsc.args.1))
    | .getPid => .ok (k, .Continue (.ok pid.val.toUInt64))
    | .schedYield => .ok (k, .Switch (.ok 0) .None)
    | .ipcUnsubscribe => do
      let (ipc, r) ← k.ipc.unsubscribe pid ⟨rsc.args.1.toNat⟩
      pure (ipcReturn k ipc r)
    | .ipcAcknowledge => do
      let (sub, ackId, positive, _) := rsc.args
      let (ipc, r) ← k.ipc.acknowledge ⟨sub.toNat⟩ ⟨ackId.toNat⟩ (positive != 0)
      pure (ipcReturn k ipc r)
    | .dmaAllocate =>
      let len := rsc.args.1
      if len = 0 then .error "assertion failed: len != 0"
      else do
        let (dma, start) ← k.dma.allocate len.toNat
        pure ({ k with dma }, .Continue (.ok start.toUInt64))
    | .dmaFree => .ok (k, .Continue (.ok 0))
    | sc => otherRoutine sc k pid rsc

/-! ## Arguments that stop the kernel -/

theorem syscall_dmaAllocate {otherRoutine : OtherRoutine} {k : Kernel} {pid : ProcessId}
    {len a b c : UInt64} (hl : len ≠ 0) :
    syscall otherRoutine k pid ⟨0x92, (len, a, b, c)⟩ =
      (do
        let (dma, start) ← k.dma.allocate len.toNat
        pure ({ k with dma }, .Continue (.ok start.toUInt64))) := by
  simp [syscall, SyscallNumber.tryFrom, hl]

/-- **System call arguments that panic the kernel.** For every kernel state,
caller and handler of the routines not modelled here: `dma_allocate` with length
0 stops at its assertion; `dma_allocate` of more blocks than the DMA area has
stops in the allocator; `ipc_acknowledge` with an acknowledge id that is not
waiting for delivery stops in `acknowledge`. None of them returns an error code
or terminates the caller. -/
theorem syscall_argument_panics (otherRoutine : OtherRoutine) (k : Kernel) (pid : ProcessId) :
    (∀ a b c : UInt64,
      syscall otherRoutine k pid ⟨0x92, (0, a, b, c)⟩ = .error "assertion failed: len != 0") ∧
    (∀ len a b c : UInt64, k.dma.blocks.length < roundUpBlock len.toNat →
      len.toNat + (DMA_BLOCK_SIZE - 1) < UInt64.size →
      syscall otherRoutine k pid ⟨0x92, (len, a, b, c)⟩ = .error "Not enough of DMA memory") ∧
    (∀ sub ackId positive d : UInt64, (⟨ackId.toNat⟩ : AcknowledgeId) ∉ k.ipc.waitingForDelivery →
      syscall otherRoutine k pid ⟨0x76, (sub, ackId, positive, d)⟩ =
        .error "Attempt to re-acknowledge a message") := by
  refine ⟨fun a b c => by simp [syscall, SyscallNumber.tryFrom], ?_, ?_⟩
  · intro len a b c hl ho
    -- a zero length rounds to zero blocks, which always fit
    have hne : len ≠ 0 := by
      rintro rfl
      simp [roundUpBlock, DMA_BLOCK_SIZE] at hl
    rw [syscall_dmaAllocate hne, DmaAllocator.allocate_of_length_lt hl ho]
    rfl
  · intro sub ackId positive d ha
    simp [syscall, SyscallNumber.tryFrom, acknowledge_of_not_waiting ha, bind, Except.bind]

/-- A fresh kernel stops on `dma_allocate(0)`. -/
theorem syscall_argument_panics_at_new :
    syscall (fun _ k _ _ => .ok (k, .Continue (.ok 0))) ⟨Scheduler.new, Manager.new, .new⟩
      ProcessId.first ⟨0x92, (0, 0, 0, 0)⟩ = .error "assertion failed: len != 0" :=
  (syscall_argument_panics _ _ _).1 0 0 0

end D7os
