import Mathlib.Data.Int.Notation

/-!
# Error numbers
-/

namespace Clio.Errno

def ESRCH : ℤ := 3
def EIO : ℤ := 5
def ENOMEM : ℤ := 12
def EFAULT : ℤ := 14
def EBUSY : ℤ := 16
def ENODEV : ℤ := 19
def EINVAL : ℤ := 22

end Clio.Errno
