import Mwdd32.Common
import Mwdd32.Lib.I386

/-!
# The IFS entry thunks of `fs_thunks.asm`

The kernel calls the 16-bit entry points `FS_XXX` of an IFS as far pascal
functions: the parameters are on the stack, the callee pops them. The macro
`thunk_fs` generates each entry point as a call of the 32-bit handler `FS32_XXX`
with the flat address of the parameters, followed by a `retf` of a byte count
written by hand.

* `size_eq_sizeof_iff`: the byte counts and the packed structures of `fsd32.h` agree,
  except for `FS_FILEATTRIBUTE`.
* `farPascal_iff`: so do the thunks and the far pascal contract.
-/

namespace Mwdd32.Fsh32

open ByteMem Interaction I386 Opnd Reg

/-! ## Entry points -/

/-- The entry points that `thunk_fs` generates (`fs_thunks.asm`, lines 75–103). -/
inductive EntryPoint
  | allocatePageSpace | chdir | chgFilePtr | close | commit | delete | doPageIo | exit
  | fileAttribute | fileInfo | findClose | findFirst | findFromName | findNext | flushBuf
  | fsctl | fsInfo | ioctl | mkdir | mount | move | newSize | openCreate | openPageFile
  | pathInfo | read | rmdir | shutdown | write
  deriving DecidableEq

/-- The second argument of `thunk_fs`. -/
def EntryPoint.size : EntryPoint → ℕ
  | .allocatePageSpace => 16
  | .chdir => 16
  | .chgFilePtr => 16
  | .close => 12
  | .commit => 12
  | .delete => 14
  | .doPageIo => 12
  | .exit => 6
  | .fileAttribute => 14
  | .fileInfo => 20
  | .findClose => 8
  | .findFirst => 38
  | .findFromName => 30
  | .findNext => 22
  | .flushBuf => 4
  | .fsctl => 28
  | .fsInfo => 12
  | .ioctl => 32
  | .mkdir => 20
  | .mount => 16
  | .move => 22
  | .newSize => 14
  | .openCreate => 42
  | .openPageFile => 30
  | .pathInfo => 24
  | .read => 18
  | .rmdir => 14
  | .shutdown => 6
  | .write => 18

/-- The types of the members of the parameter structures. -/
inductive CType
  | ushort | long | ulong | ptr16
  deriving DecidableEq

/-- The bytes of an argument in a 16-bit frame -/
def CType.size : CType → ℕ
  | .ushort => 2
  | .long | .ulong | .ptr16 => 4

/-- `struct fs32_XXX_parms` (`include/os2/fsd32.h`, lines 256–685). -/
def EntryPoint.parms : EntryPoint → List (String × CType)
  | .allocatePageSpace =>
    [("ulWantContig", .ulong), ("ulSize", .ulong), ("psffsd", .ptr16), ("psffsi", .ptr16)]
  | .chdir => [("iCurDirEnd", .ushort), ("pDir", .ptr16), ("pcdfsd", .ptr16), ("pcdfsi", .ptr16),
      ("flag", .ushort)]
  | .chgFilePtr => [("IOflag", .ushort), ("type", .ushort), ("offset", .long), ("psffsd", .ptr16),
      ("psffsi", .ptr16)]
  | .close | .commit =>
    [("psffsd", .ptr16), ("psffsi", .ptr16), ("IOflag", .ushort), ("type", .ushort)]
  | .delete =>
    [("iCurDirEnd", .ushort), ("pFile", .ptr16), ("pcdfsd", .ptr16), ("pcdfsi", .ptr16)]
  | .doPageIo => [("pPageCmdList", .ptr16), ("psffsd", .ptr16), ("psffsi", .ptr16)]
  | .exit => [("pdb", .ushort), ("pid", .ushort), ("uid", .ushort)]
  | .fileAttribute => [("pAttr", .ptr16), ("iCurDirEnd", .ushort), ("pName", .ptr16),
      ("pcdfsd", .ptr16), ("pcdfsi", .ptr16), ("flag", .ushort)]
  | .fileInfo => [("IOflag", .ushort), ("cbData", .ushort), ("pData", .ptr16), ("level", .ushort),
      ("psffsd", .ptr16), ("psffsi", .ptr16), ("flag", .ushort)]
  | .findClose => [("pfsfsd", .ptr16), ("pfsfsi", .ptr16)]
  | .findFirst => [("flags", .ushort), ("level", .ushort), ("pcMatch", .ptr16),
      ("cbData", .ushort), ("pData", .ptr16), ("pfsfsd", .ptr16), ("pfsfsi", .ptr16),
      ("attr", .ushort), ("iCurDirEnd", .ushort), ("pName", .ptr16), ("pcdfsd", .ptr16),
      ("pcdfsi", .ptr16)]
  | .findFromName => [("flags", .ushort), ("pName", .ptr16), ("position", .ulong),
      ("level", .ushort), ("pcMatch", .ptr16), ("cbData", .ushort), ("pData", .ptr16),
      ("pfsfsd", .ptr16), ("pfsfsi", .ptr16)]
  | .findNext => [("flags", .ushort), ("level", .ushort), ("pcMatch", .ptr16),
      ("cbData", .ushort), ("pData", .ptr16), ("pfsfsd", .ptr16), ("pfsfsi", .ptr16)]
  | .flushBuf => [("flag", .ushort), ("hVPB", .ushort)]
  | .fsctl => [("plenDataOut", .ptr16), ("lenData", .ushort), ("pData", .ptr16),
      ("plenParmOut", .ptr16), ("lenParm", .ushort), ("pParm", .ptr16), ("func", .ushort),
      ("iArgType", .ushort), ("pArgdat", .ptr16)]
  | .fsInfo => [("level", .ushort), ("cbData", .ushort), ("pData", .ptr16), ("hVPB", .ushort),
      ("flag", .ushort)]
  | .ioctl => [("pDataLenInOut", .ptr16), ("lenData", .ushort), ("pData", .ptr16),
      ("pParmLenInOut", .ptr16), ("lenParm", .ushort), ("pParm", .ptr16), ("func", .ushort),
      ("cat", .ushort), ("psffsd", .ptr16), ("psffsi", .ptr16)]
  | .mkdir => [("flags", .ushort), ("pEABuf", .ptr16), ("iCurDirEnd", .ushort),
      ("pName", .ptr16), ("pcdfsd", .ptr16), ("pcdfsi", .ptr16)]
  | .mount => [("pBoot", .ptr16), ("hVPB", .ushort), ("pvpfsd", .ptr16), ("pvpfsi", .ptr16),
      ("flag", .ushort)]
  | .move => [("flag", .ushort), ("iDstCurDirEnd", .ushort), ("pDst", .ptr16),
      ("iSrcCurDirEnd", .ushort), ("pSrc", .ptr16), ("pcdfsd", .ptr16), ("pcdfsi", .ptr16)]
  | .newSize => [("IOflag", .ushort), ("len", .ulong), ("psffsd", .ptr16), ("psffsi", .ptr16)]
  | .openCreate => [("pfgenflag", .ptr16), ("pEABuf", .ptr16), ("attr", .ushort),
      ("pAction", .ptr16), ("openflag", .ushort), ("ulOpenMode", .ulong), ("psffsd", .ptr16),
      ("psffsi", .ptr16), ("iCurDirEnd", .ushort), ("pName", .ptr16), ("pcdfsd", .ptr16),
      ("pcdfsi", .ptr16)]
  | .openPageFile => [("Reserved", .ulong), ("Attr", .ushort), ("OpenFlag", .ushort),
      ("OpenMode", .ushort), ("psffsd", .ptr16), ("psffsi", .ptr16), ("pName", .ptr16),
      ("pcMaxReq", .ptr16), ("pFlags", .ptr16)]
  | .pathInfo => [("cbData", .ushort), ("pData", .ptr16), ("level", .ushort),
      ("iCurDirEnd", .ushort), ("pName", .ptr16), ("pcdfsd", .ptr16), ("pcdfsi", .ptr16),
      ("flag", .ushort)]
  | .read | .write => [("IOflag", .ushort), ("pLen", .ptr16), ("pData", .ptr16),
      ("psffsd", .ptr16), ("psffsi", .ptr16)]
  | .rmdir =>
    [("iCurDirEnd", .ushort), ("pName", .ptr16), ("pcdfsd", .ptr16), ("pcdfsi", .ptr16)]
  | .shutdown => [("ulReserved", .ulong), ("usType", .ushort)]

/-- `sizeof(struct fs32_XXX_parms)`, packed -/
def EntryPoint.sizeof (x : EntryPoint) : ℕ := (x.parms.map fun p => p.2.size).sum

theorem size_eq_sizeof_iff (x : EntryPoint) : x.size = x.sizeof ↔ x ≠ .fileAttribute := by
  cases x <;> decide

/-! ## Thunks -/

variable (dos32FlatDS : BitVec 16) (tkssBase : BitVec 32)

/-- `thunk_fs` (`fs_thunks.asm`, lines 33–59) with the selector `Dos32FlatDS` and the
    offset of the kernel's `_TKSSBase` -/
def thunkFs (x : EntryPoint) : Code Empty EntryPoint :=
  [.enter 2 0, .push 2 (s .ds), .push 2 (s .es),
   .mov (r16 eax) (imm (dos32FlatDS.setWidth 32)), .mov (s .ds) (r16 eax), .mov (s .es) (r16 eax),
   .mov (r eax) (ea16 ebp 6), .alu .add (r eax) (abs 4 .ds tkssBase), .push 4 (r eax),
   .call 2 x,
   .pop 2 (s .es), .pop 2 (s .ds), .leave 2, .ret x.size]

variable (base : BitVec 16 → Addr) (ra : BitVec 32)

/-- A call of the entry point `x` by the kernel -/
def EntryPoint.exec (x : EntryPoint) (c : Cpu) :
    Prog (EntryPoint × Cpu) (fun _ => Cpu) (Option Cpu) :=
  run (.stack16 base ra) (thunkFs dos32FlatDS tkssBase x) 20 (thunkFs dos32FlatDS tkssBase x) c

/-- A handler returns over its far 32-bit return address and its one argument, and
    keeps BP and the thunk's stack frame. -/
def handler : Env Unit (EntryPoint × Cpu) (fun _ => Cpu) :=
  fun _ op c2 _ => Returns (.stack16 base ra) 12 [.ss] [(0, 2), (2, 2), (4, 2), (6, 4)] op.2 c2

/-- `_TKSSBase` holds the base of the stack segment, and is not in the stack bytes
    that the thunk writes before it reads it. -/
structure StackBase (c : Cpu) : Prop where
  value : read c.mem (base dos32FlatDS + tkssBase) 4 = base (c.sreg .ss)
  apart : ∀ d ∈ [-2, -4, -6],
    Apart (base dos32FlatDS + tkssBase) 4 (base (c.sreg .ss) + low (c.reg .esp + d)) 2

/-- The run `tr` of the thunk of `x` from `c` that ended in `res` is a far pascal call:
    the handler got the flat address of the first parameter byte and its result is in AX;
    BP, DS and ES are kept, and `sizeof` bytes of parameters popped. -/
def FarPascal (x : EntryPoint) (c : Cpu) (tr : List (Event (EntryPoint × Cpu) fun _ => Cpu))
    (res : Option Cpu) : Prop :=
  ∃ c1 c2 u, tr = [⟨(x, c1), c2⟩] ∧ res = some u ∧
    read c1.mem (c1.stk (.stack16 base ra) 8) 4 = base (c.sreg .ss) + low (c.reg .esp + 4) ∧
    low (u.reg .eax) = low (c2.reg .eax) ∧ low (u.reg .ebp) = low (c.reg .ebp) ∧
    u.sreg .ds = c.sreg .ds ∧ u.sreg .es = c.sreg .es ∧ u.eip = c.top (.stack16 base ra) 4 ∧
    low (u.reg .esp) = low (c.reg .esp + BitVec.ofNat 32 (4 + x.sizeof))

variable {dos32FlatDS tkssBase base ra}

/-- What the thunk does, with the byte count of its `retf`. -/
theorem exec_wp {x : EntryPoint} {c : Cpu} (hb : StackBase dos32FlatDS tkssBase base c) :
    Wp (handler base ra)
      (fun tr e => tr = [] ∧ e.1.1 = x ∧ read e.1.2.mem (e.1.2.stk (.stack16 base ra) 8) 4 =
        base (c.sreg .ss) + low (c.reg .esp + 4))
      (fun tr res _ => ∃ c1 c2 u, tr = [⟨(x, c1), c2⟩] ∧ res = some u ∧
        low (u.reg .eax) = low (c2.reg .eax) ∧ low (u.reg .ebp) = low (c.reg .ebp) ∧
        u.sreg .ds = c.sreg .ds ∧ u.sreg .es = c.sreg .es ∧
        u.eip = c.top (.stack16 base ra) 4 ∧
        low (u.reg .esp) = low (c.reg .esp + BitVec.ofNat 32 (4 + x.size)))
      [] () (x.exec dos32FlatDS tkssBase base ra c) := by
  obtain ⟨hvalue, hapart⟩ := hb
  simp at hapart
  obtain ⟨h2, h4, h6⟩ := hapart
  intro c2 _ hk
  obtain ⟨hesp, hebp, hss, hmem⟩ := hk
  simp [BitVec.add_assoc, h2, h4, h6, hvalue] at hesp hebp hss hmem
  obtain ⟨hes, hds, hbp, hret⟩ := hmem
  refine ⟨?_, ?_⟩
  · simp [BitVec.add_assoc, h2, h4, h6, hvalue]
    exact BitVec.add_comm _ _
  · simp [BitVec.add_assoc, hesp, hebp, hss, hes.read_eq, hds.read_eq, hbp.read_eq, hret.read_eq]

/-- The contract holds of a run when the byte count of the thunk is right modulo `2 ^ 16`. -/
theorem farPascal_of_runs {x : EntryPoint} {c : Cpu} (hb : StackBase dos32FlatDS tkssBase base c)
    (hx : x ≠ .fileAttribute) {tr : List (Event (EntryPoint × Cpu) fun _ => Cpu)}
    {res : Option Cpu}
    (h : Runs (handler base ra) () (x.exec dos32FlatDS tkssBase base ra c) tr res ()) :
    FarPascal base ra x c tr res := by
  obtain ⟨hcall, c1, c2, u, htr, hres, hax, hbp, hds, hes, heip, hsp⟩ := (exec_wp hb).sound h
  obtain ⟨-, -, harg⟩ := hcall [] ⟨(x, c1), c2⟩ [] htr
  rw [(size_eq_sizeof_iff x).mpr hx] at hsp
  exact ⟨c1, c2, u, htr, hres, harg, hax, hbp, hds, hes, heip, hsp⟩

/-- `FS_FILEATTRIBUTE` returns with the stack pointer six bytes too low. -/
theorem fileAttribute_not_farPascal {c : Cpu} (hb : StackBase dos32FlatDS tkssBase base c) :
    ¬ ∀ tr res, Runs (handler base ra) ()
        (EntryPoint.exec dos32FlatDS tkssBase base ra .fileAttribute c) tr res () →
      FarPascal base ra .fileAttribute c tr res := by
  intro h
  obtain ⟨tr, res, ⟨⟩, hrun⟩ := Runs.exists (E := handler base ra)
    (fun _ op => ⟨_, (), returns_addSp _ _ _ _ op.2⟩)
    (EntryPoint.exec dos32FlatDS tkssBase base ra .fileAttribute c) ()
  obtain ⟨_, _, u, -, hu, -, -, -, -, -, -, hsp⟩ := h tr res hrun
  obtain ⟨-, _, _, v, -, hv, -, -, -, -, -, hsp'⟩ := (exec_wp hb).sound hrun
  rw [hu] at hv
  cases hv
  exact absurd (low_add_inj (hsp.symm.trans hsp')) (by decide)

/-- **Far pascal.** For all registers and stack contents, every run of the thunk of an
    entry point respects the contract, if and only if the entry point is not
    `FS_FILEATTRIBUTE`. -/
theorem farPascal_iff (x : EntryPoint) {c : Cpu} (hb : StackBase dos32FlatDS tkssBase base c) :
    (∀ tr res, Runs (handler base ra) () (x.exec dos32FlatDS tkssBase base ra c) tr res () →
      FarPascal base ra x c tr res) ↔ x ≠ .fileAttribute := by
  constructor
  · rintro h rfl
    exact fileAttribute_not_farPascal hb h
  · intro hx tr res h
    exact farPascal_of_runs hb hx h

/-- A kernel stack of selector 8 at `0x10000`, with `_TKSSBase` at `0x400` of selector 16. -/
def kernelBase (sel : BitVec 16) : Addr := if sel = 8 then 0x10000 else 0

/-- A stack of selector 8, at the kernel's stack base -/
def kernelCpu : Cpu :=
  ⟨fun _ => 0x2000, fun sr => if sr = .ss then 8 else 0, false, false, 0,
    ByteMem.write (fun _ => 0) 0x400 4 0x10000, []⟩

theorem kernelCpu_stackBase : StackBase 16 0x400 kernelBase kernelCpu := by
  refine ⟨by simp [kernelBase, kernelCpu], ?_⟩
  simp only [List.mem_cons, List.not_mem_nil, or_false]
  rintro d (rfl | rfl | rfl) <;> decide

/-- `FS_MOUNT` called with SP = `0x2000` -/
theorem farPascal_mount :
    ∃ tr res, Runs (handler kernelBase 0) ()
        (EntryPoint.exec 16 0x400 kernelBase 0 .mount kernelCpu) tr res () ∧
      FarPascal kernelBase 0 .mount kernelCpu tr res := by
  obtain ⟨tr, res, ⟨⟩, hrun⟩ := Runs.exists (E := handler kernelBase 0)
    (fun _ op => ⟨_, (), returns_addSp _ _ _ _ op.2⟩)
    (EntryPoint.exec 16 0x400 kernelBase 0 .mount kernelCpu) ()
  refine ⟨tr, res, hrun, ?_⟩
  exact (farPascal_iff .mount kernelCpu_stackBase).mpr (by decide) tr res hrun

/-- `FS_FILEATTRIBUTE` called with SP = `0x2000` returns with SP = `0x2012`, not `0x2018`. -/
theorem fileAttribute_sample :
    ¬ ∀ tr res, Runs (handler kernelBase 0) ()
        (EntryPoint.exec 16 0x400 kernelBase 0 .fileAttribute kernelCpu) tr res () →
      FarPascal kernelBase 0 .fileAttribute kernelCpu tr res :=
  fileAttribute_not_farPascal kernelCpu_stackBase

end Mwdd32.Fsh32
