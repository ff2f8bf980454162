import Mathlib.Tactic
import Mathlib.Data.BitVec

/-!
# Toolkit values and types

The return codes, status bits and types that several parts of mwdd32 use. The
error codes of `bseerr.h` that the sources only pass on keep their toolkit
values; `STERR` and `STDON` are those of `include/os2/reqpkt32.h`, and `PTR16`
is the type of `include/os2/types.h`.
-/

namespace Mwdd32

/-- `NO_ERROR` -/
def NO_ERROR : BitVec 32 := 0

/-- `ERROR_INVALID_PARAMETER` -/
def ERROR_INVALID_PARAMETER : BitVec 32 := 87

/-- `ERROR_EXCL_SEM_ALREADY_OWNED` -/
def ERROR_EXCL_SEM_ALREADY_OWNED : BitVec 32 := 101

/-- `STERR` (`include/os2/reqpkt32.h`) -/
def STERR : BitVec 32 := 0x8000

/-- `STDON` -/
def STDON : BitVec 32 := 0x0100

/-- `ERROR_I24_BAD_COMMAND` -/
def ERROR_I24_BAD_COMMAND : BitVec 32 := 3

/-- `ERROR_I24_GEN_FAILURE` -/
def ERROR_I24_GEN_FAILURE : BitVec 32 := 12

/-- `ERROR_I24_INVALID_PARAMETER` -/
def ERROR_I24_INVALID_PARAMETER : BitVec 32 := 19

/-- `PTR16` (`include/os2/types.h`), a selector over an offset -/
abbrev PTR16 := BitVec 32

end Mwdd32
