import Mwdd32.Common
import Mwdd32.Lib.I386

/-!
# The DevHlp32 wrappers

The 32-bit wrappers of `devhlp32/*.asm` around the 16-bit DevHelp services of
the kernel. Each is the code of its `proc`; the jump to its `thunk16$` label,
the `call [DevHelp2]` there and the jump back to its `thunk32$` label are one
`call` of the kernel.

* `Wrapper.declared`: which registers are to hold which declared parameter.
* `Wrapper.loaded`, `Wrapper.rc`, `Wrapper.stored`: what the code loads, returns and
  stores.
-/

namespace Mwdd32.DevHlp

open ByteMem I386 Opnd Reg

/-- The wrappers, one for each service of the kernel -/
inductive Wrapper
  | vmLock | vmUnlock | vmAlloc | virtToLin | getDosVar | linToPageList | pageListToLin
  | procBlock | procRun | verifyAccess | setIRQ | unSetIRQ | security
  | openEventSem | closeEventSem | postEventSem | resetEventSem
  | allocOneGDTSelector | freeGDTSelector | attachToDD
  deriving DecidableEq

/-- The local labels of the wrappers. -/
inductive Label
  | error
  | out
  deriving DecidableEq

/-- The number of a DevHelp service, `DevHlp_XXX` of the toolkit. -/
abbrev Numbers := Wrapper → BitVec 32

variable (devHlp : Numbers)

/-! ## Code -/

/-- `DevHlp32_VMLock.asm`, lines 60–85 -/
def devHlp32VMLock : Code Label Wrapper :=
  [.push 4 (r ebp), .mov (r ebp) (r esp), .push 4 (r ebx), .push 4 (r esi), .push 4 (r edi),
   .mov (r ebx) (m 4 .ss ebp 12), .mov (r ecx) (m 4 .ss ebp 16), .mov (r edi) (m 4 .ss ebp 20),
   .mov (r esi) (m 4 .ss ebp 24), .mov (r eax) (m 4 .ss ebp 8),
   .mov (lo edx) (imm (devHlp .vmLock)), .call 1 .vmLock,
   .jcc .carry .error,
   .mov (r edi) (m 4 .ss ebp 28), .mov (m 4 .ds edi 0) (r eax), .mov (r eax) (imm NO_ERROR),
   .label .error,
   .pop 4 (r edi), .pop 4 (r esi), .pop 4 (r ebx), .leave 4, .ret 0]

/-- `DevHlp32_VMUnlock.asm`, lines 55–70 -/
def devHlp32VMUnlock : Code Label Wrapper :=
  [.push 4 (r ebp), .mov (r ebp) (r esp), .push 4 (r esi),
   .mov (r esi) (m 4 .ss ebp 8),
   .mov (r edx) (imm (devHlp .vmUnlock)), .call 1 .vmUnlock,
   .jcc .carry .error,
   .mov (r eax) (imm NO_ERROR),
   .label .error,
   .pop 4 (r esi), .leave 4, .ret 0]

/-- `DevHlp32_VMAlloc.asm`, lines 58–80 -/
def devHlp32VMAlloc : Code Label Wrapper :=
  [.push 4 (r ebp), .mov (r ebp) (r esp), .push 4 (r ebx), .push 4 (r edi),
   .mov (r ecx) (m 4 .ss ebp 8), .mov (r edi) (m 4 .ss ebp 12), .mov (r eax) (m 4 .ss ebp 16),
   .mov (lo edx) (imm (devHlp .vmAlloc)), .call 1 .vmAlloc,
   .jcc .carry .error,
   .mov (r ebx) (m 4 .ss ebp 20), .mov (m 4 .ds ebx 0) (r eax), .mov (r eax) (imm NO_ERROR),
   .label .error,
   .pop 4 (r edi), .pop 4 (r ebx), .leave 4, .ret 0]

/-- `DevHlp32_VirtToLin.asm`, lines 57–77 -/
def devHlp32VirtToLin : Code Label Wrapper :=
  [.push 4 (r ebp), .mov (r ebp) (r esp), .push 4 (r esi), .push 4 (r edi),
   .mov (r esi) (m 2 .ss ebp 8), .mov (r16 eax) (m 2 .ss ebp 10),
   .mov (lo edx) (imm (devHlp .virtToLin)), .call 1 .virtToLin,
   .jcc .carry .error,
   .mov (r edi) (m 4 .ss ebp 12), .mov (m 4 .ds edi 0) (r eax), .mov (r eax) (imm NO_ERROR),
   .label .error,
   .pop 4 (r edi), .pop 4 (r esi), .leave 4, .ret 0]

/-- `DevHlp32_GetDosVar.asm`, lines 57–79 -/
def devHlp32GetDosVar : Code Label Wrapper :=
  [.enter 4 0, .push 4 (r ebx), .push 4 (r esi), .push 4 (r edi),
   .mov (r eax) (m 4 .ss ebp 8), .mov (r ecx) (m 4 .ss ebp 16),
   .mov (lo edx) (imm (devHlp .getDosVar)), .call 1 .getDosVar,
   .jcc .carry .error,
   .mov (r edi) (m 4 .ss ebp 12), .mov (m 2 .ds edi 0) (r16 ebx), .mov (m 2 .ds edi 2) (r16 eax),
   .mov (r eax) (imm NO_ERROR),
   .label .error,
   .pop 4 (r edi), .pop 4 (r esi), .pop 4 (r ebx), .leave 4, .ret 0]

/-- `DevHlp32_LinToPageList.asm`, lines 58–83 -/
def devHlp32LinToPageList : Code Label Wrapper :=
  [.push 4 (r ebp), .mov (r ebp) (r esp), .push 4 (r ebx), .push 4 (r edi),
   .mov (r eax) (m 4 .ss ebp 8), .mov (r ecx) (m 4 .ss ebp 12), .mov (r edi) (m 4 .ss ebp 16),
   .mov (r edx) (imm (devHlp .linToPageList)), .call 1 .linToPageList,
   .jcc .carry .error,
   .mov (r ebx) (m 4 .ss ebp 20), .alu .cmp (r ebx) (imm 0), .jcc .zero .out,
   .mov (m 4 .ds ebx 0) (r eax),
   .label .out,
   .mov (r eax) (imm NO_ERROR),
   .label .error,
   .pop 4 (r edi), .pop 4 (r ebx), .leave 4, .ret 0]

/-- `DevHlp32_PageListToLin.asm`, lines 57–83 -/
def devHlp32PageListToLin : Code Label Wrapper :=
  [.enter 4 0, .push 4 (r edi), .push 4 (r ebx),
   .mov (r ecx) (m 4 .ss ebp 8), .mov (r edi) (m 4 .ss ebp 12),
   .mov (lo edx) (imm (devHlp .pageListToLin)), .call 1 .pageListToLin,
   .jcc .carry .error,
   .mov (r ebx) (m 4 .ss ebp 16), .alu .cmp (r ebx) (imm 0), .jcc .zero .out,
   .mov (m 4 .ds ebx 0) (r eax), .mov (r eax) (imm NO_ERROR),
   .label .error,
   .pop 4 (r ebx), .pop 4 (r edi), .leave 4, .ret 0,
   .label .out,
   .mov (r eax) (imm ERROR_INVALID_PARAMETER), .jmp .error]

/-- `devhlp32_procblock.asm`, lines 57–76 -/
def devHlp32ProcBlock : Code Label Wrapper :=
  [.push 4 (r ebp), .mov (r ebp) (r esp), .push 4 (r ebx), .push 4 (r edi),
   .mov (r16 ebx) (m 2 .ss ebp 8), .mov (r16 eax) (m 2 .ss ebp 10),
   .mov (r16 edi) (m 2 .ss ebp 14), .mov (r16 ecx) (m 2 .ss ebp 12),
   .mov (hi edx) (m 1 .ss ebp 16),
   .mov (lo edx) (imm (devHlp .procBlock)), .call 1 .procBlock,
   .alu .and (r eax) (imm 0xFF),
   .pop 4 (r edi), .pop 4 (r ebx), .leave 4, .ret 0]

/-- `DevHlp32_ProcRun.asm`, lines 55–64 -/
def devHlp32ProcRun : Code Label Wrapper :=
  [.push 4 (r ebx),
   .mov (r16 ebx) (m 2 .ss esp 8), .mov (r16 eax) (m 2 .ss esp 10),
   .mov (lo edx) (imm (devHlp .procRun)), .call 1 .procRun,
   .pop 4 (r ebx), .ret 0]

/-- `DevHlp32_VerifyAccess.asm`, lines 58–82 -/
def devHlp32VerifyAccess : Code Label Wrapper :=
  [.push 4 (r ebp), .mov (r ebp) (r esp), .push 4 (r ebx), .push 4 (r ecx), .push 4 (r edi),
   .mov (r16 edi) (m 2 .ss ebp 8), .mov (r16 eax) (m 2 .ss ebp 10),
   .mov (r16 ecx) (m 2 .ss ebp 12), .mov (hi edx) (m 1 .ss ebp 16),
   .mov (lo edx) (imm (devHlp .verifyAccess)), .call 1 .verifyAccess,
   .jcc .carry .error,
   .mov (r eax) (imm NO_ERROR),
   .label .error,
   .alu .and (r eax) (imm 0xFFFF),
   .pop 4 (r edi), .pop 4 (r ecx), .pop 4 (r ebx), .leave 4, .ret 0]

/-- `DevHlp32_setIRQ.asm`, lines 58–78 -/
def devHlp32SetIRQ : Code Label Wrapper :=
  [.enter 4 0, .push 4 (s .ds), .push 4 (r ebx),
   .mov (r16 eax) (m 2 .ss ebp 8), .mov (r16 ebx) (m 2 .ss ebp 12),
   .mov (hi edx) (m 1 .ss ebp 16), .mov (r16 ecx) (m 2 .ss ebp 20), .mov (s .ds) (r16 ecx),
   .mov (lo edx) (imm (devHlp .setIRQ)), .call 1 .setIRQ,
   .jcc .carry .error,
   .mov (r16 eax) (imm NO_ERROR),
   .label .error,
   .mov (r eax) (r16 eax),
   .pop 4 (r ebx), .pop 4 (s .ds), .leave 4, .ret 0]

/-- `DevHlp32_UnSetIRQ.asm`, lines 56–71 -/
def devHlp32UnSetIRQ : Code Label Wrapper :=
  [.enter 4 0, .push 4 (s .ds), .push 4 (r ebx),
   .mov (r16 ebx) (m 2 .ss ebp 8), .mov (r16 ecx) (m 2 .ss ebp 12), .mov (s .ds) (r16 ecx),
   .mov (lo edx) (imm (devHlp .unSetIRQ)), .call 1 .unSetIRQ,
   .alu .xor (r eax) (r eax),
   .pop 4 (r ebx), .pop 4 (s .ds), .leave 4, .ret 0]

/-- `DevHlp32_Security.asm`, lines 62–76 -/
def devHlp32Security : Code Label Wrapper :=
  [.push 4 (r ebp), .mov (r ebp) (r esp), .push 4 (r ebx),
   .mov (r ecx) (m 4 .ss ebp 12), .mov (r eax) (m 4 .ss ebp 8),
   .mov (r edx) (imm (devHlp .security)), .call 1 .security,
   .mov (r eax) (imm NO_ERROR),
   .pop 4 (r ebx), .leave 4, .ret 0]

/-- The body of `DevHlp32_OpenEventSem`, `DevHlp32_CloseEventSem` and
    `DevHlp32_PostEventSem`. -/
def eventSemCall (w : Wrapper) : Code Label Wrapper :=
  [.push 4 (r ebx),
   .mov (r eax) (m 4 .ss esp 8),
   .mov (lo edx) (imm (devHlp w)), .call 1 w,
   .jcc .carry .error,
   .mov (r eax) (imm NO_ERROR),
   .label .error,
   .alu .and (r eax) (imm 0xFFFF),
   .pop 4 (r ebx), .ret 0]

/-- `DevHlp32_OpenEventSem.asm`, lines 56–69 -/
def devHlp32OpenEventSem : Code Label Wrapper := eventSemCall devHlp .openEventSem

/-- `DevHlp32_CloseEventSem.asm`, lines 56–69 -/
def devHlp32CloseEventSem : Code Label Wrapper := eventSemCall devHlp .closeEventSem

/-- `DevHlp32_PostEventSem.asm`, lines 56–69 -/
def devHlp32PostEventSem : Code Label Wrapper := eventSemCall devHlp .postEventSem

/-- `DevHlp32_ResetEventSem.asm`, lines 57–72 -/
def devHlp32ResetEventSem : Code Label Wrapper :=
  [.push 4 (r ebx), .push 4 (r edi),
   .mov (r eax) (m 4 .ss esp 8), .mov (r edi) (m 4 .ss esp 12),
   .mov (lo edx) (imm (devHlp .resetEventSem)), .call 1 .resetEventSem,
   .jcc .carry .error,
   .mov (r eax) (imm NO_ERROR),
   .label .error,
   .alu .and (r eax) (imm 0xFFFF),
   .pop 4 (r edi), .pop 4 (r ebx), .ret 0]

/-- `DevHlp32_AllocOneGDTSelector.asm`, lines 55–81: the kernel stores the selector at
    `es:edi`, a local of two bytes, and the wrapper copies it to `*psel`. -/
def devHlp32AllocOneGDTSelector : Code Label Wrapper :=
  [.enter 4 2, .push 4 (s .es), .push 4 (r ebx), .push 4 (r esi), .push 4 (r edi),
   .mov (r edi) (ea ebp (-2)), .mov (r eax) (s .ss), .mov (s .es) (r eax),
   .mov (r ecx) (imm 1),
   .mov (lo edx) (imm (devHlp .allocOneGDTSelector)), .call 1 .allocOneGDTSelector,
   .jcc .carry .error,
   .mov (r16 eax) (m 2 .ss ebp (-2)), .mov (r ebx) (m 4 .ss ebp 8),
   .mov (m 2 .ss ebx 0) (r16 eax), .mov (r eax) (imm NO_ERROR),
   .label .error,
   .pop 4 (r edi), .pop 4 (r esi), .pop 4 (r ebx), .pop 4 (s .es), .leave 4, .ret 0]

/-- `DevHlp32_FreeGDTSelector.asm`, lines 55–63 -/
def devHlp32FreeGDTSelector : Code Label Wrapper :=
  [.mov (lo edx) (imm (devHlp .freeGDTSelector)), .call 1 .freeGDTSelector,
   .jcc .carry .error,
   .mov (r eax) (imm NO_ERROR),
   .label .error,
   .ret 0]

/-- `DevHlp32_AttachToDD.asm`, lines 56–75 -/
def devHlp32AttachToDD : Code Label Wrapper :=
  [.push 4 (s .ds), .push 4 (r ebx), .push 4 (r edi),
   .mov (r ebx) (r eax), .mov (r edi) (r edx), .mov (r eax) (s .ss), .mov (s .ds) (r eax),
   .mov (lo edx) (imm (devHlp .attachToDD)), .call 1 .attachToDD,
   .jcc .carry .error,
   .mov (r eax) (imm NO_ERROR),
   .label .error,
   .pop 4 (r edi), .pop 4 (r ebx), .pop 4 (s .ds), .ret 0]

/-- The code of each wrapper -/
def Wrapper.code : Wrapper → Code Label Wrapper
  | .vmLock => devHlp32VMLock devHlp
  | .vmUnlock => devHlp32VMUnlock devHlp
  | .vmAlloc => devHlp32VMAlloc devHlp
  | .virtToLin => devHlp32VirtToLin devHlp
  | .getDosVar => devHlp32GetDosVar devHlp
  | .linToPageList => devHlp32LinToPageList devHlp
  | .pageListToLin => devHlp32PageListToLin devHlp
  | .procBlock => devHlp32ProcBlock devHlp
  | .procRun => devHlp32ProcRun devHlp
  | .verifyAccess => devHlp32VerifyAccess devHlp
  | .setIRQ => devHlp32SetIRQ devHlp
  | .unSetIRQ => devHlp32UnSetIRQ devHlp
  | .security => devHlp32Security devHlp
  | .openEventSem => devHlp32OpenEventSem devHlp
  | .closeEventSem => devHlp32CloseEventSem devHlp
  | .postEventSem => devHlp32PostEventSem devHlp
  | .resetEventSem => devHlp32ResetEventSem devHlp
  | .allocOneGDTSelector => devHlp32AllocOneGDTSelector devHlp
  | .freeGDTSelector => devHlp32FreeGDTSelector devHlp
  | .attachToDD => devHlp32AttachToDD devHlp

/-! ## Parameters -/

/-- The number of dword arguments on the stack. -/
def Wrapper.arity : Wrapper → ℕ
  | .vmLock => 6
  | .vmAlloc | .linToPageList | .setIRQ => 4
  | .getDosVar | .pageListToLin | .procBlock | .verifyAccess => 3
  | .virtToLin | .unSetIRQ | .security | .resetEventSem => 2
  | .vmUnlock | .procRun | .openEventSem | .closeEventSem | .postEventSem
  | .allocOneGDTSelector => 1
  | .freeGDTSelector | .attachToDD => 0

/-- What the code saves on the stack, last push first. -/
def saved {L X : Type} : Code L X → List Opnd
  | [] => []
  | .push _ o :: is => saved is ++ [o]
  | .enter _ _ :: is => saved is ++ [r ebp]
  | _ :: is => saved is

/-- The parts of the frame that a wrapper needs back from the kernel, as offsets
    from the stack pointer: all of it, but for the local that
    `DevHlp32_AllocOneGDTSelector` has filled. -/
def Wrapper.slots (w : Wrapper) : List (BitVec 32 × ℕ) :=
  match w with
  | .allocOneGDTSelector => [(0, 16), (18, 12)]
  | w => [(0, 4 * (saved (w.code devHlp)).length + 4 + 4 * w.arity)]

variable (args : ℕ → BitVec 32) (retaddr : BitVec 32)

/-- The registers of the DevHelp service and the declared parameter, or the part
    of it, that each is to hold. A `PTR16` has its offset in the low word. -/
def Wrapper.declared : Wrapper → List (Opnd × BitVec 32)
  | .vmLock => [(r eax, args 0), (r ebx, args 1), (r ecx, args 2), (r edi, args 3),
      (r esi, args 4)]
  | .vmUnlock => [(r esi, args 0)]
  | .vmAlloc => [(r ecx, args 0), (r edi, args 1), (r eax, args 2)]
  | .virtToLin => [(r esi, low (args 0)), (r16 eax, high (args 0))]
  | .getDosVar => [(r eax, args 0), (r ecx, args 2)]
  | .linToPageList => [(r eax, args 0), (r ecx, args 1), (r edi, args 2)]
  | .pageListToLin => [(r ecx, args 0), (r edi, args 1)]
  | .procBlock => [(r16 ebx, low (args 0)), (r16 eax, high (args 0)), (r16 edi, high (args 1)),
      (r16 ecx, low (args 1)), (hi edx, byte0 (args 2))]
  | .procRun => [(r16 ebx, low (args 0)), (r16 eax, high (args 0))]
  | .verifyAccess => [(r16 edi, low (args 0)), (r16 eax, high (args 0)), (r16 ecx, low (args 1)),
      (hi edx, byte0 (args 2))]
  | .setIRQ => [(r16 eax, low (args 0)), (r16 ebx, low (args 1)), (hi edx, byte0 (args 2)),
      (s .ds, low (args 3))]
  | .unSetIRQ => [(r16 ebx, low (args 0)), (s .ds, low (args 1))]
  | .security => [(r eax, args 0), (r ecx, args 1)]
  | .openEventSem | .closeEventSem | .postEventSem => [(r eax, args 0)]
  | .resetEventSem => [(r eax, args 0), (r edi, args 1)]
  | .allocOneGDTSelector | .freeGDTSelector | .attachToDD => []

/-- What the registers do hold at the call of the kernel. The loads of
    `DevHlp32_ResetEventSem` are those of a wrapper with one push. -/
def Wrapper.loaded : Wrapper → List (Opnd × BitVec 32)
  | .resetEventSem => [(r eax, retaddr), (r edi, args 0)]
  | w => w.declared args

end Mwdd32.DevHlp
