import Nanoservice.Disk.Basic
import Nanoservice.Literal

/-!
# The wording of disk faults

What a message says about a fault: the number and words that operating systems have for its
obstacle, and the place where it was met.
-/

namespace Nanoservice

/-- The number of an obstacle and its words. -/
def Obstacle.wording : Obstacle → String
  | .occupied => "[Errno 17] File exists"
  | .folder => "[Errno 21] Is a directory"
  | .notFolder => "[Errno 20] Not a directory"
  | .missing => "[Errno 2] No such file or directory"
  | .notText => "[Errno 84] Invalid or incomplete multibyte or wide character"

/-- The wording of a fault; `shown` is the form in which its place is shown. -/
def DiskFault.message (shown : Path → String) (f : DiskFault) : String :=
  f.obstacle.wording ++ ": " ++ Literal.quote (shown f.place)

end Nanoservice
