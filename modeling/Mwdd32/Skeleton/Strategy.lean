import Mwdd32.Client.OpenCount
import Mwdd32.Lib.Transition
import Mwdd32.Server.Status
import Mwdd32.Skeleton.InitBase

/-!
# The strategy routines

The four drivers get every request at a 16-bit stub (`*_stub_strategy` in `mwdd32/mwdd32_start.asm`
and `skeleton/*/*_start.asm`), which answers command 0 itself and passes any other to a 32-bit
strategy routine (`mwdd32/mwdd32_strategy.c`, `skeleton/*/*_strategy.c`) with a routing table of 32
handlers.

* `stubStrategy_answer`: what a driver answers to one request, for every outcome of the services.
* `driver_run`: a whole run of requests, in any order.
-/

namespace Mwdd32.Skeleton

open ByteMem Interaction Transition Server Client
open Mwdd32.Util (Byte)

/-! ## Handlers -/

/-- The drivers with a strategy routine -/
inductive Driver
  | mwdd32 | drv32 | dev32 | sec32
  deriving DecidableEq

/-- What a handler reads of a request packet, by the kind of the request: `reqpkt_init`, and the
    fields of `reqpkt_read` and `reqpkt_write`. -/
structure Request where
  init : ReqpktInit
  transferAddress : BitVec 32
  count : BitVec 16

/-- The services of the initialisations, `DevHlp32_PageListToLin` for a list of one page, the calls
    of `mwdd32_ioctl`, the ring 3 part of an initialisation by `DEVICE=`, and `memset (lin, 0,
    count)`. -/
inductive DriverOp
  | kernel (op : BaseOp)
  | pageListToLin (size physaddr pageSize : BitVec 32)
  | ioctl (op : IoctlOp)
  | deviceInit (reqpkt : PTR16)
  | memset (lin : BitVec 32) (count : ℕ)

/-- A service returns the carry flag and EAX, `device_init` AX and the packet as the 32-bit routine
    has left it. -/
def DriverOp.Res : DriverOp → Type
  | .kernel op => op.Res
  | .pageListToLin _ _ _ => Bool × BitVec 32
  | .ioctl op => op.Res
  | .deviceInit _ => BitVec 16 × ReqpktInit
  | .memset _ _ => Unit

/-- A routine of a driver -/
abbrev DriverProg := Prog DriverOp DriverOp.Res

/-- A call of a driver and its answer -/
abbrev DriverEvent := Event DriverOp DriverOp.Res

/-- The value of `open_count`, the packet and the status that a handler leaves. -/
structure Outcome (w : ℕ) where
  openCount : BitVec 32
  request : Request
  status : BitVec w

/-- The calls of an initialisation -/
def ofBase {α : Type} (p : BaseProg α) : DriverProg α := p.lift DriverOp.kernel

/-- The calls of `mwdd32_ioctl` -/
def ofIoctl {α : Type} (p : IoctlProg α) : DriverProg α := p.lift DriverOp.ioctl

/-- The address is stored in a local, so the pointer to it is not null. -/
def pageListToLin (size physaddr pageSize : BitVec 32) : DriverProg (BitVec 32 × BitVec 32) :=
  .call (.pageListToLin size physaddr pageSize) fun r => .ret (if r.1 then r.2 else NO_ERROR, r.2)

section Handlers

variable (reqpkt : PTR16) (count : BitVec 32) (request : Request)

/-- A handler that refuses every request -/
def invalidCommand : DriverProg (Outcome 32) :=
  return ⟨count, request, STDON + STERR + ERROR_I24_BAD_COMMAND⟩

/-- A handler without any special processing -/
def doneCommand : DriverProg (Outcome 32) := return ⟨count, request, STDON⟩

/-- A handler of opens or closes: `f` has the return code of the conversion and `open_count`. -/
def countCommand (f : BitVec 32 → BitVec 32 → BitVec 32 × BitVec 32) : DriverProg (Outcome 32) := do
  let (rc, _) ← ofBase (virtToLin reqpkt)
  return ⟨(f rc count).1, request, (f rc count).2⟩

/-- `drv32_read` (`skeleton/basedev/drv32_read.c`): a read fills the buffer with zeroes. -/
def drv32Read : DriverProg (Outcome 32) := do
  let invalid := STERR + ERROR_I24_INVALID_PARAMETER ||| STDON
  let (rc, _) ← ofBase (virtToLin reqpkt)
  if rc = NO_ERROR then
    let size := request.count.setWidth 32
    let (rc, lin) ← pageListToLin size request.transferAddress size
    if rc = NO_ERROR then
      Prog.perform (DriverOp.memset lin request.count.toNat)
      return ⟨count, request, STDON⟩
    else return ⟨count, request, invalid⟩
  else return ⟨count, request, invalid⟩

/-- `drv32_write` (`skeleton/basedev/drv32_write.c`): a write does nothing yet. -/
def drv32Write : DriverProg (Outcome 32) := do
  let invalid := STERR + ERROR_I24_INVALID_PARAMETER ||| STDON
  let (rc, _) ← ofBase (virtToLin reqpkt)
  if rc = NO_ERROR then
    let size := request.count.setWidth 32
    let (rc, _) ← pageListToLin size request.transferAddress size
    return ⟨count, request, if rc = NO_ERROR then STDON else invalid⟩
  else return ⟨count, request, invalid⟩

/-- `mwdd32_ioctl` -/
def ioctlCommand (ERROR_NOBLOCK : BitVec 32) : DriverProg (Outcome 32) := do
  let status ← ofIoctl (mwdd32Ioctl ERROR_NOBLOCK reqpkt)
  return ⟨count, request, status⟩

/-- The `*_init_base` of a driver -/
def initBaseCommand (initBase : PTR16 → ReqpktInit → BaseProg (BitVec 32 × ReqpktInit)) :
    DriverProg (Outcome 32) := do
  let (status, init) ← ofBase (initBase reqpkt request.init)
  return ⟨count, { request with init := init }, status⟩

/-- `mwdd32_invalid_command` -/
def mwdd32InvalidCommand : DriverProg (Outcome 32) := invalidCommand count request

/-- `mwdd32_shutdown` -/
def mwdd32Shutdown : DriverProg (Outcome 32) := doneCommand count request

/-- `mwdd32_init_complete` -/
def mwdd32InitComplete : DriverProg (Outcome 32) := doneCommand count request

/-- `drv32_invalid_command` -/
def drv32InvalidCommand : DriverProg (Outcome 32) := invalidCommand count request

/-- `drv32_open` -/
def drv32Open : DriverProg (Outcome 32) := countCommand reqpkt count request mwdd32Open

/-- `drv32_close` -/
def drv32Close : DriverProg (Outcome 32) := countCommand reqpkt count request mwdd32Close

/-- `drv32_ioctl` -/
def drv32Ioctl : DriverProg (Outcome 32) := doneCommand count request

/-- `drv32_shutdown` -/
def drv32Shutdown : DriverProg (Outcome 32) := doneCommand count request

/-- `drv32_init_complete` -/
def drv32InitComplete : DriverProg (Outcome 32) := doneCommand count request

/-- `dev32_invalid_command` -/
def dev32InvalidCommand : DriverProg (Outcome 32) := invalidCommand count request

/-- `dev32_open` -/
def dev32Open : DriverProg (Outcome 32) := countCommand reqpkt count request mwdd32Open

/-- `dev32_close` -/
def dev32Close : DriverProg (Outcome 32) := countCommand reqpkt count request mwdd32Close

/-- `dev32_ioctl` -/
def dev32Ioctl : DriverProg (Outcome 32) := doneCommand count request

/-- `dev32_shutdown` -/
def dev32Shutdown : DriverProg (Outcome 32) := doneCommand count request

/-- `dev32_init_complete` -/
def dev32InitComplete : DriverProg (Outcome 32) := doneCommand count request

/-- `sec32_invalid_command` -/
def sec32InvalidCommand : DriverProg (Outcome 32) := invalidCommand count request

/-- `sec32_open` -/
def sec32Open : DriverProg (Outcome 32) := countCommand reqpkt count request mwdd32Open

/-- `sec32_close` -/
def sec32Close : DriverProg (Outcome 32) := countCommand reqpkt count request mwdd32Close

/-- `sec32_ioctl` -/
def sec32Ioctl : DriverProg (Outcome 32) := doneCommand count request

/-- `sec32_shutdown` -/
def sec32Shutdown : DriverProg (Outcome 32) := doneCommand count request

/-- `sec32_init_complete` -/
def sec32InitComplete : DriverProg (Outcome 32) := doneCommand count request

end Handlers

/-! ## Routing tables -/

/-- An entry of a routing table, without the prefix of the driver. -/
inductive Routine
  | invalid | read | write | open | close | ioctl | initBase | shutdown | initComplete
  deriving DecidableEq

open Routine in
/-- `driver_routing_table`, eight entries a line -/
def Driver.routingTable : Driver → List Routine
  | .mwdd32 | .sec32 =>
    [invalid, invalid, invalid, invalid, invalid, invalid, invalid, invalid,
     invalid, invalid, invalid, invalid, invalid, .open, .close, invalid,
     .ioctl, invalid, invalid, invalid, invalid, invalid, invalid, invalid,
     invalid, invalid, invalid, initBase, shutdown, invalid, invalid, initComplete]
  | .drv32 =>
    [invalid, invalid, invalid, invalid, .read, invalid, invalid, invalid,
     .write, invalid, invalid, invalid, invalid, .open, .close, invalid,
     .ioctl, invalid, invalid, invalid, invalid, invalid, invalid, invalid,
     invalid, invalid, invalid, initBase, shutdown, invalid, invalid, initComplete]
  | .dev32 =>
    [invalid, invalid, invalid, invalid, invalid, invalid, invalid, invalid,
     invalid, invalid, invalid, invalid, invalid, .open, .close, invalid,
     .ioctl, invalid, invalid, invalid, invalid, invalid, invalid, invalid,
     invalid, invalid, invalid, invalid, shutdown, invalid, invalid, initComplete]

section Strategy

variable (img : Image) (mem : Memory) (securityRc : Bool → BitVec 32 → BitVec 32)
  (ERROR_NOBLOCK : BitVec 32)

/-- The function of the driver in that entry. No table has an entry for a function that its driver
    does not have: a transfer but in `drv32`, an `init_base` in `dev32`. -/
def Driver.handler (d : Driver) (reqpkt : PTR16) (count : BitVec 32) (request : Request)
    (routine : Routine) : DriverProg (Outcome 32) :=
  match d, routine with
  | .mwdd32, .open => countCommand reqpkt count request mwdd32Open
  | .mwdd32, .close => countCommand reqpkt count request mwdd32Close
  | .mwdd32, .ioctl => ioctlCommand reqpkt count request ERROR_NOBLOCK
  | .mwdd32, .initBase => initBaseCommand reqpkt count request (mwdd32InitBase img mem)
  | .mwdd32, .shutdown => mwdd32Shutdown count request
  | .mwdd32, .initComplete => mwdd32InitComplete count request
  | .mwdd32, _ => mwdd32InvalidCommand count request
  | .drv32, .invalid => drv32InvalidCommand count request
  | .drv32, .read => drv32Read reqpkt count request
  | .drv32, .write => drv32Write reqpkt count request
  | .drv32, .open => drv32Open reqpkt count request
  | .drv32, .close => drv32Close reqpkt count request
  | .drv32, .ioctl => drv32Ioctl count request
  | .drv32, .initBase => initBaseCommand reqpkt count request (drv32InitBase img mem)
  | .drv32, .shutdown => drv32Shutdown count request
  | .drv32, .initComplete => drv32InitComplete count request
  | .dev32, .open => dev32Open reqpkt count request
  | .dev32, .close => dev32Close reqpkt count request
  | .dev32, .ioctl => dev32Ioctl count request
  | .dev32, .shutdown => dev32Shutdown count request
  | .dev32, .initComplete => dev32InitComplete count request
  | .dev32, _ => dev32InvalidCommand count request
  | .sec32, .open => sec32Open reqpkt count request
  | .sec32, .close => sec32Close reqpkt count request
  | .sec32, .ioctl => sec32Ioctl count request
  | .sec32, .initBase => initBaseCommand reqpkt count request (sec32InitBase img mem securityRc)
  | .sec32, .shutdown => sec32Shutdown count request
  | .sec32, .initComplete => sec32InitComplete count request
  | .sec32, _ => sec32InvalidCommand count request

/-- `*_strategy(reqpkt, index)`. The size of the table is unsigned, so the comparison is too. -/
def Driver.strategy (d : Driver) (reqpkt : PTR16) (index : BitVec 32) (count : BitVec 32)
    (request : Request) :
    DriverProg (Outcome 32) :=
  match d.routingTable[index.toNat]? with
  | some routine => d.handler img mem securityRc ERROR_NOBLOCK reqpkt count request routine
  | none => return ⟨count, request, STDON + STERR + ERROR_I24_INVALID_PARAMETER⟩

/-- `*_stub_strategy` for a packet with this `reqCommand`. Command 0 is refused by all but `dev32`,
    which is initialised by it; both clear `i_devHelp` after an error. -/
def Driver.stubStrategy (d : Driver) (reqpkt : PTR16) (command : Byte) (count : BitVec 32)
    (request : Request) : DriverProg (Outcome 16) := do
  if command = 0 then
    if d = .dev32 then
      let (ax, init) ← Prog.perform (DriverOp.deviceInit reqpkt)
      if ax &&& STERR.setWidth 16 ≠ 0 then
        return ⟨count, { request with init := { init with first := 0 } }, ax⟩
      else return ⟨count, { request with init := init }, ax⟩
    else
      return ⟨count, { request with init := { request.init with first := 0 } },
        (STDON + STERR + ERROR_I24_BAD_COMMAND).setWidth 16⟩
  else
    let out ← d.strategy img mem securityRc ERROR_NOBLOCK reqpkt (command.setWidth 32) count request
    return ⟨out.openCount, out.request, out.status.setWidth 16⟩

end Strategy

/-! ## Specification -/

section Specification

variable (securityRc : Bool → BitVec 32 → BitVec 32)

/-- A service that sets the carry flag returns a non-zero AX; anything else may return anything. -/
def driverKernel : Env Unit DriverOp DriverOp.Res
  | _, .kernel op, r, _ => baseKernel () op r ()
  | _, .pageListToLin _ _ _, r, _ => r.1 = true → I386.low r.2 ≠ 0
  | _, _, _, _ => True

/-- The commands that a driver has. -/
def Driver.commands : Driver → List Byte
  | .mwdd32 | .sec32 => [0x0D, 0x0E, 0x10, 0x1B, 0x1C, 0x1F]
  | .drv32 => [0x04, 0x08, 0x0D, 0x0E, 0x10, 0x1B, 0x1C, 0x1F]
  | .dev32 => [0x00, 0x0D, 0x0E, 0x10, 0x1C, 0x1F]

/-- A failure that the request cannot be served after. -/
def failed : DriverEvent → Bool
  | ⟨.kernel op, r⟩ => fails securityRc ⟨op, r⟩
  | ⟨.pageListToLin _ _ _, (cf, _)⟩ => cf
  | ⟨.ioctl op, r⟩ => unlockFails ⟨op, r⟩
  | ⟨.deviceInit _, (ax, _)⟩ => decide (ax &&& STERR.setWidth 16 ≠ 0)
  | ⟨.memset _ _, _⟩ => false

/-- `mwdd32_ioctl` has called the init routine of a client. -/
def callsClient : DriverEvent → Bool
  | ⟨.ioctl op, r⟩ => callsInit ⟨op, r⟩
  | _ => false

/-- The buffers that a run has filled with zeroes. -/
def fills (tr : List DriverEvent) : List (BitVec 32 × ℕ) :=
  tr.filterMap fun
    | ⟨.memset lin count, _⟩ => some (lin, count)
    | _ => none

/-- The driver has the command, nothing failed, and an IOCTL of mwdd32 got to its client. -/
structure Served (d : Driver) (command : Byte) (tr : List DriverEvent) : Prop where
  known : command ∈ d.commands
  done : tr.any (failed securityRc) = false
  client : d = .mwdd32 → command = 0x10 → tr.any callsClient = true

/-- The answer of a driver to one request. -/
structure Answer (d : Driver) (command : Byte) (count : BitVec 32) (request : Request)
    (tr : List DriverEvent) (out : Outcome 16) : Prop where
  error : out.status &&& STERR.setWidth 16 = 0 ↔ Served securityRc d command tr
  done : d ≠ .dev32 ∨ command ≠ 0 → out.status &&& STDON.setWidth 16 ≠ 0 ∧
    (Served securityRc d command tr → out.status = STDON.setWidth 16)
  opened : Served securityRc d command tr → command = 0x0D → out.openCount = count + 1
  closed : Served securityRc d command tr → command = 0x0E → out.openCount = count - 1
  kept : ¬ Served securityRc d command tr ∨ command ≠ 0x0D ∧ command ≠ 0x0E → out.openCount = count
  /-- Only an initialisation changes the packet, and command 0 leaves no ends after an error. -/
  packet : command ≠ 0 → command ≠ 0x1B → out.request = request
  ends : ¬ Served securityRc d command tr → command = 0 → out.request.init.first = 0
  /-- A read of `drv32` that is served fills the buffer that was converted, and nothing else is
      filled. -/
  filled : Served securityRc d command tr → d = .drv32 → command = 0x04 →
    ∃ lin, (⟨.pageListToLin (request.count.setWidth 32) request.transferAddress
      (request.count.setWidth 32),
      (false, lin)⟩ : DriverEvent) ∈ tr ∧ fills tr = [(lin, request.count.toNat)]
  notFilled : ¬ Served securityRc d command tr ∨ d ≠ .drv32 ∨ command ≠ 0x04 → fills tr = []

end Specification

/-! ## Handlers -/

section Handled

variable {img : Image} {mem : Memory} {securityRc : Bool → BitVec 32 → BitVec 32}
  {ERROR_NOBLOCK : BitVec 32} {d : Driver} {reqpkt : PTR16} {count : BitVec 32} {request : Request}
  {tr : List DriverEvent}
  {out : Outcome 32} {ok : Prop}

/-- A status that tells whether the request was served. -/
structure Replies (ok : Prop) (status : BitVec 32) : Prop where
  error : status &&& STERR = 0 ↔ ok
  done : status &&& STDON ≠ 0
  clean : ok → status = STDON

theorem replies_done (hok : ok) : Replies ok STDON := ⟨iff_of_true rfl hok, by decide, fun _ => rfl⟩

theorem replies_error {code : BitVec 32} (hok : ¬ ok)
    (hcode : code ∈ [ERROR_I24_BAD_COMMAND, ERROR_I24_INVALID_PARAMETER,
      ERROR_I24_QUIET_INIT_FAIL]) :
    Replies ok (STERR + code ||| STDON) := by
  have hstatus : (STERR + code ||| STDON) &&& STERR ≠ 0 ∧
      (STERR + code ||| STDON) &&& STDON ≠ 0 := by
    fin_cases hcode <;> decide
  exact ⟨iff_of_false hstatus.1 hok, hstatus.2, fun h => absurd h hok⟩

/-- What a handler makes of `open_count` when nothing fails. -/
def Routine.counted (count : BitVec 32) : Routine → BitVec 32
  | .open => count + 1
  | .close => count - 1
  | _ => count

/-- What an entry of the table does for one request. -/
structure Handled (securityRc : Bool → BitVec 32 → BitVec 32) (d : Driver) (routine : Routine)
    (count : BitVec 32) (request : Request) (tr : List DriverEvent) (out : Outcome 32) : Prop where
  reply : Replies (routine ≠ .invalid ∧ tr.any (failed securityRc) = false ∧
    (d = .mwdd32 → routine = .ioctl → tr.any callsClient = true)) out.status
  count : out.openCount = if tr.any (failed securityRc) = true then count else routine.counted count
  packet : routine ≠ .initBase → out.request = request
  filled : tr.any (failed securityRc) = false → routine = .read →
    ∃ lin, (⟨.pageListToLin (request.count.setWidth 32) request.transferAddress
      (request.count.setWidth 32),
      (false, lin)⟩ : DriverEvent) ∈ tr ∧ fills tr = [(lin, request.count.toNat)]
  notFilled : tr.any (failed securityRc) = true ∨ routine ≠ .read → fills tr = []

/-- The carry flag and the error code of a service. -/
theorem rc_eq_noError_iff {cf : Bool} {eax : BitVec 32} (h : cf = true → I386.low eax ≠ 0) :
    (if cf then eax else NO_ERROR) = NO_ERROR ↔ cf = false := by
  cases cf with
  | false => exact iff_of_true rfl rfl
  | true =>
    refine iff_of_false (fun heax : eax = NO_ERROR => h rfl ?_) (by simp)
    rw [heax]
    rfl

theorem handled_invalid (h : Runs driverKernel () (invalidCommand count request) tr out ()) :
    Handled securityRc d .invalid count request tr out := by
  cases h
  refine ⟨?_, rfl, fun _ => rfl, (fun _ h => nomatch h), fun _ => rfl⟩
  exact @replies_error _ ERROR_I24_BAD_COMMAND (fun h => h.1 rfl) List.mem_cons_self

theorem handled_done {routine : Routine} (hroutine : routine = .shutdown ∨ routine = .initComplete ∨
      routine = .ioctl ∧ d ≠ .mwdd32)
    (h : Runs driverKernel () (doneCommand count request) tr out ()) :
    Handled securityRc d routine count request tr out := by
  cases h
  rcases hroutine with rfl | rfl | ⟨rfl, hd⟩
  all_goals
    refine ⟨replies_done ⟨by decide, rfl, ?_⟩, rfl, fun _ => rfl, (fun _ h => nomatch h),
      fun _ => rfl⟩
  · exact fun _ h => nomatch h
  · exact fun _ h => nomatch h
  · exact fun h => absurd h hd

/-- A handler that has called the kernel once or twice, without a reason to fail but for that. -/
theorem performed_iff {routine : Routine} (hroutine : routine ≠ .invalid)
    (hclient : d = .mwdd32 → routine ≠ .ioctl) :
    (routine ≠ .invalid ∧ tr.any (failed securityRc) = false ∧
      (d = .mwdd32 → routine = .ioctl → tr.any callsClient = true)) ↔
    tr.any (failed securityRc) = false :=
  ⟨fun h => h.2.1, fun h => ⟨hroutine, h, fun hd hr => absurd hr (hclient hd)⟩⟩

/-- What a handler leaves when the packet or the buffer could not be converted. -/
theorem handled_refused {routine : Routine} (hfailed : tr.any (failed securityRc) = true)
    (hfills : fills tr = []) :
    Handled securityRc d routine count request tr
      ⟨count, request, STERR + ERROR_I24_INVALID_PARAMETER ||| STDON⟩ := by
  refine ⟨?_, (if_pos hfailed).symm, fun _ => rfl, fun h => ?_, fun _ => hfills⟩
  · rw [hfailed]
    exact replies_error (fun h => Bool.noConfusion h.2.1) (by simp)
  · rw [hfailed] at h
    cases h

theorem handled_count {f : BitVec 32 → BitVec 32 → BitVec 32 × BitVec 32} {routine : Routine}
    (hroutine : routine = .open ∨ routine = .close)
    (hf : ∀ rc, f rc count = if rc = NO_ERROR then (routine.counted count, STDON)
      else (count, STERR + ERROR_I24_INVALID_PARAMETER ||| STDON)) :
    Wp driverKernel (fun _ _ => True)
      (fun tr out _ => Handled securityRc d routine count request tr out) [] ()
      (countCommand reqpkt count request f) := by
  rintro ⟨cf, lin⟩ _ hE
  have hf : f (if cf then lin else NO_ERROR) count =
    if cf = false then (routine.counted count, STDON)
      else (count, STERR + ERROR_I24_INVALID_PARAMETER ||| STDON) :=
    (hf _).trans (if_congr (rc_eq_noError_iff hE) rfl rfl)
  have hread : routine ≠ .read := by rcases hroutine with rfl | rfl <;> decide
  refine ⟨trivial, ?_⟩
  show Handled securityRc d routine count request _
    ⟨(f (if cf then lin else NO_ERROR) count).1, request,
      (f (if cf then lin else NO_ERROR) count).2⟩
  rw [hf]
  cases cf with
  | false =>
    refine ⟨replies_done ?_, rfl, fun _ => rfl, fun _ h => absurd h hread, fun _ => rfl⟩
    refine (performed_iff ?_ fun _ => ?_).mpr rfl <;> rcases hroutine with rfl | rfl <;> decide
  | true =>
    rw [if_neg (by decide)]
    exact handled_refused rfl rfl

theorem handled_read : Wp driverKernel (fun _ _ => True)
    (fun tr out _ => Handled securityRc .drv32 .read count request tr out) [] ()
    (drv32Read reqpkt count request) := by
  rintro ⟨cf, lin⟩ _ hE
  refine ⟨trivial, wp_ite (fun hrc => ?_) fun hrc => ?_⟩
  · obtain rfl := (rc_eq_noError_iff hE).mp hrc
    rintro ⟨cf, buffer⟩ _ hE
    refine ⟨trivial, wp_ite (fun hrc => ?_) fun hrc => ?_⟩
    · obtain rfl := (rc_eq_noError_iff hE).mp hrc
      rintro ⟨⟩ _ -
      refine ⟨trivial, replies_done ?_, rfl, fun _ => rfl, fun _ _ => ⟨buffer, ?_, rfl⟩,
        fun h => ?_⟩
      · exact (performed_iff (by decide) fun _ => by decide).mpr rfl
      · simp
      · rcases h with h | h
        · cases h
        · exact absurd rfl h
    · obtain rfl : cf = true := by simpa using mt (rc_eq_noError_iff hE).mpr hrc
      exact handled_refused rfl rfl
  · obtain rfl : cf = true := by simpa using mt (rc_eq_noError_iff hE).mpr hrc
    exact handled_refused rfl rfl

theorem handled_write : Wp driverKernel (fun _ _ => True)
    (fun tr out _ => Handled securityRc .drv32 .write count request tr out) [] ()
    (drv32Write reqpkt count request) := by
  rintro ⟨cf, lin⟩ _ hE
  refine ⟨trivial, wp_ite (fun hrc => ?_) fun hrc => ?_⟩
  · obtain rfl := (rc_eq_noError_iff hE).mp hrc
    rintro ⟨cf, buffer⟩ _ hE
    refine ⟨trivial, ?_⟩
    show Handled securityRc .drv32 .write count request _ ⟨count, request,
      if (if cf then buffer else NO_ERROR) = NO_ERROR then STDON else _⟩
    rw [if_congr (rc_eq_noError_iff hE) rfl rfl]
    cases cf with
    | false =>
      refine ⟨replies_done ?_, rfl, fun _ => rfl, (fun _ h => nomatch h), fun _ => rfl⟩
      exact (performed_iff (by decide) fun _ => by decide).mpr rfl
    | true => exact handled_refused rfl rfl
  · obtain rfl : cf = true := by simpa using mt (rc_eq_noError_iff hE).mpr hrc
    exact handled_refused rfl rfl

/-- The marks of an IOCTL and its status. -/
theorem ends_replies {L : Marks} {status : BitVec 32} (h : Server.Ends L status) :
    Replies (L.unlockFailed = false ∧ L.called = true) (status ||| STDON) := by
  obtain ⟨called, refused, unlockFailed⟩ := L
  rcases h with ⟨hcalled, rfl⟩ | ⟨⟨hcalled, rfl⟩, hunlock⟩
  · simp only at hcalled
    rw [hcalled]
    constructor <;> cases refused <;> cases unlockFailed <;> decide
  · simp only at hcalled hunlock
    rw [hcalled, hunlock]
    constructor <;> cases refused <;> decide

/-- What the calls of an IOCTL amount to. -/
theorem runs_ofIoctl {p : IoctlProg (BitVec 32)} {status : BitVec 32}
    (h : Runs driverKernel () (ofIoctl p) tr status ()) :
    ∃ tr₀, Runs Env.any () p tr₀ status () ∧ tr.any (failed securityRc) = tr₀.any unlockFails ∧
      tr.any callsClient = tr₀.any callsInit ∧ fills tr = [] := by
  obtain ⟨tr₀, hrun, rfl⟩ := runs_lift.mp h
  refine ⟨tr₀, hrun.mono Env.any fun _ _ _ _ _ => trivial, List.any_map, List.any_map, ?_⟩
  refine List.filterMap_eq_nil_iff.mpr fun e he => ?_
  obtain ⟨e, -, rfl⟩ := List.mem_map.mp he
  rfl

theorem runs_ofBase (securityRc : Bool → BitVec 32 → BitVec 32) {α : Type} {p : BaseProg α} {a : α}
    (h : Runs driverKernel () (ofBase p) tr a ()) :
    ∃ tr₀, Runs baseKernel () p tr₀ a () ∧ tr.any (failed securityRc) = tr₀.any (fails securityRc) ∧
      fills tr = [] := by
  obtain ⟨tr₀, hrun, rfl⟩ := runs_lift.mp h
  refine ⟨tr₀, hrun.mono baseKernel fun _ _ _ _ hE => hE, List.any_map, ?_⟩
  refine List.filterMap_eq_nil_iff.mpr fun e he => ?_
  obtain ⟨e, -, rfl⟩ := List.mem_map.mp he
  rfl

theorem handled_ioctl
    (h : Runs driverKernel () (ioctlCommand reqpkt count request ERROR_NOBLOCK) tr out ()) :
    Handled securityRc .mwdd32 .ioctl count request tr out := by
  obtain ⟨tr, status, _, _, hlift, hret, rfl⟩ := runs_bind.mp h
  cases hret
  obtain ⟨tr₀, hrun, hfailed, hcalled, hfills⟩ := runs_ofIoctl hlift
  obtain ⟨status, rfl, hends⟩ := (mwdd32Ioctl_ends reqpkt).sound hrun
  rw [foldl_marks] at hends
  have hreply := ends_replies hends
  simp only [Marks.none, Bool.false_or] at hreply
  rw [List.append_nil]
  refine ⟨?_, (ite_self count).symm, fun _ => rfl, (fun _ h => by cases h), fun _ => hfills⟩
  rw [hfailed, hcalled]
  refine ⟨hreply.error.trans ?_, hreply.done, fun h => hreply.clean ⟨h.2.1, h.2.2 rfl rfl⟩⟩
  exact ⟨fun h => ⟨by decide, h.1, fun _ _ => h.2⟩, fun h => ⟨h.2.1, h.2.2 rfl rfl⟩⟩

theorem handled_initBase {b : BaseDriver}
    (h : Runs driverKernel () (initBaseCommand reqpkt count request (b.initBase img mem securityRc))
      tr out ()) :
    Handled securityRc d .initBase count request tr out := by
  obtain ⟨tr, ⟨status, init⟩, _, _, hlift, hret, rfl⟩ := runs_bind.mp h
  cases hret
  obtain ⟨tr₀, hrun, hfailed, hfills⟩ := runs_ofBase securityRc hlift
  have hends := (initBase_ends hrun).result
  rw [List.append_nil]
  refine ⟨?_, (ite_self count).symm, fun h => absurd rfl h, (fun _ h => nomatch h), fun _ => hfills⟩
  rw [performed_iff (by decide) fun _ => by decide, hfailed]
  cases hf : tr₀.any (fails securityRc) with
  | false =>
    simp only [hf, Bool.false_eq_true, if_false, Prod.mk.injEq] at hends
    rw [hends.1]
    exact replies_done rfl
  | true =>
    simp only [hf, if_true, Prod.mk.injEq] at hends
    rw [hends.1]
    exact replies_error Bool.noConfusion (by simp)

/-- The entries of the tables by their commands. -/
structure Entry (d : Driver) (n : ℕ) (routine : Routine) : Prop where
  opens : routine = .open ↔ n = 0x0D
  closes : routine = .close ↔ n = 0x0E
  ioctl : routine = .ioctl ↔ n = 0x10
  initBase : routine = .initBase → n = 0x1B ∧ d ≠ .dev32
  read : routine = .read ↔ d = .drv32 ∧ n = 0x04
  write : routine = .write → d = .drv32
  known : n ≠ 0 → (routine ≠ .invalid ↔ BitVec.ofNat 8 n ∈ d.commands)

theorem entry_of_routingTable {n : ℕ} {routine : Routine} (h : d.routingTable[n]? = some routine) :
    Entry d n routine := by
  have hlen : n < 32 := by
    have := (List.getElem?_eq_some_iff.mp h).1
    cases d <;> exact this
  have hentry : ∀ n < 32, let r := (d.routingTable[n]?).getD .invalid
      (r = .open ↔ n = 0x0D) ∧ (r = .close ↔ n = 0x0E) ∧ (r = .ioctl ↔ n = 0x10) ∧
      (r = .initBase → n = 0x1B ∧ d ≠ .dev32) ∧ (r = .read ↔ d = .drv32 ∧ n = 0x04) ∧
      (r = .write → d = .drv32) ∧ (n ≠ 0 → (r ≠ .invalid ↔ BitVec.ofNat 8 n ∈ d.commands)) := by
    cases d <;> decide
  have hget : (d.routingTable[n]?).getD .invalid = routine := by rw [h, Option.getD_some]
  obtain ⟨h1, h2, h3, h4, h5, h6, h7⟩ := hget ▸ hentry n hlen
  exact ⟨h1, h2, h3, h4, h5, h6, h7⟩

theorem handler_handled {n : ℕ} {routine : Routine} (hentry : Entry d n routine)
    (h : Runs driverKernel ()
      (d.handler img mem securityRc ERROR_NOBLOCK reqpkt count request routine) tr out ()) :
    Handled securityRc d routine count request tr out := by
  cases routine with
  | invalid => cases d <;> exact handled_invalid h
  | read =>
    obtain rfl := (hentry.read.mp rfl).1
    exact (handled_read.sound h).2
  | write =>
    obtain rfl := hentry.write rfl
    exact (handled_write.sound h).2
  | «open» => cases d <;> exact ((handled_count (.inl rfl) fun _ => rfl).sound h).2
  | close => cases d <;> exact ((handled_count (.inr rfl) fun _ => rfl).sound h).2
  | ioctl =>
    cases d with
    | mwdd32 => exact handled_ioctl h
    | _ => exact handled_done (.inr (.inr ⟨rfl, by decide⟩)) h
  | initBase =>
    cases d with
    | mwdd32 => exact handled_initBase (b := .mwdd32) h
    | drv32 => exact handled_initBase (b := .drv32) h
    | sec32 => exact handled_initBase (b := .sec32) h
    | dev32 => exact absurd rfl (hentry.initBase rfl).2
  | shutdown => cases d <;> exact handled_done (.inl rfl) h
  | initComplete => cases d <;> exact handled_done (.inr (.inl rfl)) h

end Handled

/-! ## Requests -/

section Stub

variable {img : Image} {mem : Memory} {securityRc : Bool → BitVec 32 → BitVec 32}
  {ERROR_NOBLOCK : BitVec 32} {d : Driver} {reqpkt : PTR16} {command : Byte} {count : BitVec 32}
  {request : Request}
  {tr : List DriverEvent} {out : Outcome 32} {ok : Prop}

/-- Both flags are in AX. -/
theorem Replies.truncate {status : BitVec 32} (h : Replies ok status) :
    (status.setWidth 16 &&& STERR.setWidth 16 = 0 ↔ ok) ∧
      status.setWidth 16 &&& STDON.setWidth 16 ≠ 0 ∧
      (ok → status.setWidth 16 = STDON.setWidth 16) := by
  have hflag : ∀ flag : BitVec 32, flag.toNat < 2 ^ 16 →
      (status.setWidth 16 &&& flag.setWidth 16 = 0 ↔ status &&& flag = 0) := by
    intro flag hflag
    rw [← BitVec.setWidth_and, ← BitVec.toNat_inj, ← BitVec.toNat_inj, BitVec.toNat_setWidth,
      Nat.mod_eq_of_lt (by
        rw [BitVec.toNat_and]
        exact lt_of_le_of_lt Nat.and_le_right hflag)]
    rfl
  refine ⟨(hflag STERR (by decide)).trans h.error, mt (hflag STDON (by decide)).mp h.done,
    fun hok => ?_⟩
  rw [h.clean hok]

theorem toNat_eq_iff {n : ℕ} (hn : n < 256) : command.toNat = n ↔ command = BitVec.ofNat 8 n := by
  rw [← BitVec.toNat_inj, BitVec.toNat_ofNat, Nat.mod_eq_of_lt hn]

/-- The condition of an entry is that of its command. -/
theorem served_iff (securityRc : Bool → BitVec 32 → BitVec 32) (tr : List DriverEvent)
    {routine : Routine} (hentry : Entry d command.toNat routine) (hcommand : ¬ command = 0#8) :
    Served securityRc d command tr ↔ routine ≠ .invalid ∧ tr.any (failed securityRc) = false ∧
      (d = .mwdd32 → routine = .ioctl → tr.any callsClient = true) := by
  have hknown : routine ≠ .invalid ↔ command ∈ d.commands := by
    have h := hentry.known fun h => hcommand (BitVec.eq_of_toNat_eq h)
    rwa [BitVec.ofNat_toNat, BitVec.setWidth_eq] at h
  have hioctl : routine = .ioctl ↔ command = 0x10 := hentry.ioctl.trans (toNat_eq_iff (by decide))
  rw [hknown, hioctl]
  exact ⟨fun h => ⟨h.known, h.done, h.client⟩, fun h => ⟨h.1, h.2.1, h.2.2⟩⟩

/-- An entry of the table answers its command. -/
theorem Handled.answer {routine : Routine} (hentry : Entry d command.toNat routine)
    (hcommand : ¬ command = 0#8) (h : Handled securityRc d routine count request tr out) :
    Answer securityRc d command count request tr ⟨out.openCount, out.request,
      out.status.setWidth 16⟩ := by
  have hserved := served_iff securityRc tr hentry hcommand
  have hreply := h.reply.truncate
  have hopen : routine = .open ↔ command = 0x0D := hentry.opens.trans (toNat_eq_iff (by decide))
  have hclose : routine = .close ↔ command = 0x0E := hentry.closes.trans (toNat_eq_iff (by decide))
  have hread : routine = .read ↔ d = .drv32 ∧ command = 0x04 :=
    hentry.read.trans (and_congr_right' (toNat_eq_iff (by decide)))
  have hcount : Served securityRc d command tr → out.openCount = routine.counted count :=
    fun hs => by
    rw [h.count, hs.done]
    rfl
  have hrefused : ¬ Served securityRc d command tr →
      tr.any (failed securityRc) = true ∨ routine = .invalid ∨ routine = .ioctl := by
    intro hs
    by_contra hnot
    simp only [not_or, Bool.not_eq_true] at hnot
    exact hs (hserved.mpr ⟨hnot.2.1, hnot.1, fun _ hr => absurd hr hnot.2.2⟩)
  have hkept : routine ≠ .open → routine ≠ .close → out.openCount = count := by
    intro h1 h2
    rw [h.count]
    cases routine <;> first | exact absurd rfl h1 | exact absurd rfl h2 | exact ite_self count
  exact {
    error := hreply.1.trans hserved.symm
    done := fun _ => ⟨hreply.2.1, fun hs => hreply.2.2 (hserved.mp hs)⟩
    opened := fun hs hc => by rw [hcount hs, hopen.mpr hc]; rfl
    closed := fun hs hc => by rw [hcount hs, hclose.mpr hc]; rfl
    kept := by
      rintro (hs | ⟨h1, h2⟩)
      · rcases hrefused hs with hf | rfl | rfl
        · rw [h.count, if_pos hf]
        · exact hkept (by decide) (by decide)
        · exact hkept (by decide) (by decide)
      · exact hkept (mt hopen.mp h1) (mt hclose.mp h2)
    packet := fun _ hc => h.packet fun hr =>
      hc ((toNat_eq_iff (by decide)).mp (hentry.initBase hr).1)
    ends := fun _ hc => absurd hc hcommand
    filled := fun hs hd hc => h.filled hs.done (hread.mpr ⟨hd, hc⟩)
    notFilled := by
      rintro (hs | hdc)
      · rcases hrefused hs with hf | rfl | rfl
        · exact h.notFilled (.inl hf)
        · exact h.notFilled (.inr (by decide))
        · exact h.notFilled (.inr (by decide))
      · refine h.notFilled (.inr fun hr => ?_)
        obtain ⟨hd, hc⟩ := hread.mp hr
        exact hdc.elim (absurd hd) (absurd hc) }

/-- Every command that a driver has is an index into its table. -/
theorem toNat_lt_of_mem_commands :
    ∀ command ∈ d.commands, command.toNat < d.routingTable.length := by
  cases d <;> decide

/-- A command that the driver does not have leaves everything as it is. -/
theorem answer_unknown {code : BitVec 32} {request' : Request} (hknown : command ∉ d.commands)
    (hcode : code ∈ [ERROR_I24_BAD_COMMAND, ERROR_I24_INVALID_PARAMETER])
    (hrequest : command ≠ 0 → request' = request) (hends : command = 0 → request'.init.first = 0) :
    Answer securityRc d command count request
      [] ⟨count, request', (STDON + STERR + code).setWidth 16⟩ := by
  have hserved : ¬ Served securityRc d command [] := fun h => hknown h.known
  have hstatus : (STDON + STERR + code).setWidth 16 &&& STERR.setWidth 16 ≠ 0 ∧
      (STDON + STERR + code).setWidth 16 &&& STDON.setWidth 16 ≠ 0 := by
    fin_cases hcode <;> decide
  exact {
    error := iff_of_false hstatus.1 hserved
    done := fun _ => ⟨hstatus.2, fun h => absurd h hserved⟩
    opened := fun h => absurd h hserved
    closed := fun h => absurd h hserved
    kept := fun _ => rfl
    packet := fun h _ => hrequest h
    ends := fun _ => hends
    filled := fun h => absurd h hserved
    notFilled := fun _ => rfl }

/-- A `DEVICE=` driver is initialised at ring 3 by command 0. -/
theorem answer_deviceInit {ax : BitVec 16} {init : ReqpktInit} :
    Answer securityRc .dev32 0 count request [⟨.deviceInit reqpkt, (ax, init)⟩]
      ⟨count, { request with
        init := if ax &&& STERR.setWidth 16 ≠ 0 then { init with first := 0 } else init }, ax⟩ := by
  have hserved : Served securityRc .dev32 0 [⟨.deviceInit reqpkt, (ax, init)⟩] ↔
      ax &&& STERR.setWidth 16 = 0 := by
    constructor
    · intro h
      simpa [failed] using h.done
    · exact fun h => ⟨by decide, by simpa [failed] using h, nofun⟩
  exact {
    error := hserved.symm
    done := fun h => h.elim (absurd rfl) (absurd rfl)
    opened := fun _ h => nomatch h
    closed := fun _ h => nomatch h
    kept := fun _ => rfl
    packet := fun h => absurd rfl h
    ends := fun h _ => by
      show (if _ then _ else _ : ReqpktInit).first = 0
      rw [if_pos (mt hserved.mpr h)]
    filled := fun _ h => nomatch h
    notFilled := fun _ => rfl }

/-- What a driver answers to one request, whatever the services return. -/
theorem stubStrategy_answer {out : Outcome 16} (h : Runs driverKernel ()
      (d.stubStrategy img mem securityRc ERROR_NOBLOCK reqpkt command count request) tr out ()) :
    Answer securityRc d command count request tr out := by
  rw [Driver.stubStrategy] at h
  by_cases hcommand : command = 0#8
  · subst hcommand
    rw [if_pos (show (0#8 : Byte) = 0 from rfl)] at h
    by_cases hd : d = .dev32
    · subst hd
      rw [if_pos rfl] at h
      obtain ⟨tr, ⟨ax, init⟩, _, _, hrun, hret, rfl⟩ := runs_bind.mp h
      cases hrun with
      | call _ hrun =>
        cases hrun
        have hanswer := @answer_deviceInit securityRc reqpkt count request ax init
        simp only at hret
        split_ifs at hret with hax <;> cases hret
        · rwa [if_pos hax] at hanswer
        · rwa [if_neg hax] at hanswer
    · rw [if_neg hd] at h
      cases h
      have hknown : (0#8 : Byte) ∉ d.commands := by cases d <;> first | decide | exact absurd rfl hd
      exact answer_unknown hknown List.mem_cons_self (fun h => absurd rfl h) fun _ => rfl
  · rw [if_neg (show ¬ command = 0 from hcommand)] at h
    obtain ⟨tr, out, _, _, hrun, hret, rfl⟩ := runs_bind.mp h
    cases hret
    rw [List.append_nil]
    rw [Driver.strategy, BitVec.toNat_setWidth, Nat.mod_eq_of_lt (by omega)] at hrun
    cases hget : d.routingTable[command.toNat]? with
    | some routine =>
      rw [hget] at hrun
      have hentry := entry_of_routingTable hget
      exact (handler_handled hentry hrun).answer hentry hcommand
    | none =>
      rw [hget] at hrun
      cases hrun
      refine answer_unknown (fun hmem => ?_) (by simp) (fun _ => rfl) fun h => absurd h hcommand
      have hlen : command.toNat < d.routingTable.length := toNat_lt_of_mem_commands command hmem
      rw [List.getElem?_eq_getElem hlen] at hget
      cases hget

end Stub

/-! ## Runs -/

/-- One request of a run, with the memory it was given, the calls it made and its answer. -/
structure Call where
  reqpkt : PTR16
  command : Byte
  request : Request
  mem : Memory
  calls : List DriverEvent
  out : Outcome 16

/-- A call that was answered without an error. -/
def Call.served (command : Byte) (c : Call) : Bool :=
  c.command = command ∧ c.out.status &&& STERR.setWidth 16 = 0

section Runs

variable (img : Image) (securityRc : Bool → BitVec 32 → BitVec 32) (ERROR_NOBLOCK : BitVec 32)

/-- A driver between two requests, by the value of its `open_count`. -/
def Driver.system (d : Driver) : System (BitVec 32) Call where
  init count := count = 0
  step count c count' := count' = c.out.openCount ∧
    Runs driverKernel ()
      (d.stubStrategy img c.mem securityRc ERROR_NOBLOCK c.reqpkt c.command count c.request)
      c.calls c.out ()

variable {img securityRc ERROR_NOBLOCK} {d : Driver} {count count' : BitVec 32} {c : Call}

/-- What one request makes of `open_count`. -/
theorem Answer.openCount_eq
    (h : Answer securityRc d c.command count c.request c.calls c.out) :
    c.out.openCount =
      count + BitVec.ofNat 32 (c.served 0x0D).toNat - BitVec.ofNat 32 (c.served 0x0E).toNat := by
  by_cases hs : Served securityRc d c.command c.calls
  · have hstatus := h.error.mpr hs
    by_cases hopen : c.command = 0x0D
    · have h1 : c.served 0x0D = true := decide_eq_true ⟨hopen, hstatus⟩
      have h2 : c.served 0x0E = false := decide_eq_false fun h => by
        rw [hopen] at h
        exact absurd h.1 (by decide)
      rw [h.opened hs hopen, h1, h2]
      exact (BitVec.sub_zero _).symm
    · have h1 : c.served 0x0D = false := decide_eq_false fun h => hopen h.1
      by_cases hclose : c.command = 0x0E
      · have h2 : c.served 0x0E = true := decide_eq_true ⟨hclose, hstatus⟩
        rw [h.closed hs hclose, h1, h2]
        exact congrArg (· - 1) (BitVec.add_zero _).symm
      · have h2 : c.served 0x0E = false := decide_eq_false fun h => hclose h.1
        rw [h.kept (.inr ⟨hopen, hclose⟩), h1, h2]
        exact ((BitVec.sub_zero _).trans (BitVec.add_zero _)).symm
  · have hnot : ∀ command, c.served command = false := fun command =>
      decide_eq_false fun hc => hs (h.error.mp hc.2)
    rw [h.kept (.inl hs), hnot, hnot]
    exact ((BitVec.sub_zero _).trans (BitVec.add_zero _)).symm

/-- The requests of a run with that command that were served. -/
def servedCount (command : Byte) (tr : List (Step (BitVec 32) Call)) : ℕ :=
  tr.countP fun e => e.label.served command

theorem servedCount_cons (command : Byte) (e : Step (BitVec 32) Call)
    (tr : List (Step (BitVec 32) Call)) :
    servedCount command (e :: tr) = servedCount command tr + (e.label.served command).toNat := by
  rw [servedCount, List.countP_cons]
  cases e.label.served command <;> rfl

/-- **Requests.** In every run of a driver each request gets its answer, and `open_count` is what it
    was and the opens that were served, without the closes. -/
theorem driver_run {tr : List (Step (BitVec 32) Call)}
    (h : Path (d.system img securityRc ERROR_NOBLOCK) count tr count') :
    (∀ e ∈ tr, Answer securityRc d e.label.command e.before e.label.request e.label.calls
      e.label.out) ∧
      count' =
        count + BitVec.ofNat 32 (servedCount 0x0D tr) - BitVec.ofNat 32 (servedCount 0x0E tr) := by
  induction h with
  | nil => simp [servedCount]
  | cons hstep _ ih =>
    obtain ⟨rfl, hrun⟩ := hstep
    have hanswer := stubStrategy_answer hrun
    refine ⟨List.forall_mem_cons.mpr ⟨hanswer, ih.1⟩, ?_⟩
    rw [ih.2, hanswer.openCount_eq]
    simp only [servedCount_cons, BitVec.ofNat_add]
    ring

end Runs

/-! ### Samples -/

/-- A request for 512 bytes at physical address 0x1000. -/
def sampleTransfer : Request := ⟨sampleRequest, 0x1000, 512⟩

/-- The answer to one conversion of the packet. -/
def virtToLinEvent (r : Bool × BitVec 32) : DriverEvent :=
  ⟨.kernel (.init (.service .virtToLin [0])), r⟩

/-- A call with a packet at 0, and no command line. -/
def sampleCall (command : Byte) (calls : List DriverEvent) (status : BitVec 16) : Call :=
  ⟨0, command, sampleTransfer, sampleMemory, calls, 1, sampleTransfer, status⟩

/-- An open, a read whose buffer is refused, and a read. -/
def sampleRun : List (Step (BitVec 32) Call) :=
  let page : DriverOp := .pageListToLin 512 0x1000 512
  [⟨0, sampleCall 0x0D [virtToLinEvent (false, 0x5000)] 0x0100, 1⟩,
    ⟨1, sampleCall 0x04 [virtToLinEvent (false, 0x5000), ⟨page, (true, (87 : BitVec 32))⟩] 0x8113,
      1⟩,
    ⟨1, sampleCall 0x04 [virtToLinEvent (false, 0x5000), ⟨page, (false, (0x7000 : BitVec 32))⟩,
      ⟨.memset 0x7000 512, ()⟩] 0x0100, 1⟩]

theorem sampleRun_path : Path (Driver.drv32.system sampleImage (fun _ _ => 0) 0) 0 sampleRun 1 := by
  have hconverted : driverKernel () _ (virtToLinEvent (false, 0x5000)).2 () := nofun
  refine .cons ⟨rfl, .call hconverted .ret⟩ (.cons ⟨rfl, .call hconverted ?_⟩
    (.cons ⟨rfl, .call hconverted ?_⟩ .nil))
  · exact .call (show driverKernel () _ _ () from fun _ => by decide) .ret
  · exact .call (show driverKernel () _ _ () from nofun) (.call trivial .ret)

theorem driver_run_sample : (∀ e ∈ sampleRun, Answer (fun _ _ => 0) .drv32 e.label.command e.before
      e.label.request e.label.calls e.label.out) ∧
    (1 : BitVec 32) = 0 + BitVec.ofNat 32 (servedCount 0x0D sampleRun) -
      BitVec.ofNat 32 (servedCount 0x0E sampleRun) :=
  driver_run sampleRun_path

end Mwdd32.Skeleton
