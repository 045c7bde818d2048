import RouteBook.FileTree.Errno
import RouteBook.Text.Quoted

/-! Why reading or writing failed. -/

namespace RouteBook

inductive IoError where
  | os (errno : Errno)
  /-- A path held a zero byte, which no path may hold. -/
  | zeroByte
  /-- A text was wanted and the bytes are not UTF-8. -/
  | notText
  /-- The output took only a part of what was written. -/
  | outputFull
  deriving DecidableEq, Repr

namespace IoError

def message : IoError → String
  | .os errno => errno.text ++ " (os error " ++ toString errno.code ++ ")"
  | .zeroByte => "file name contained an unexpected NUL byte"
  | .notText => "stream did not contain valid UTF-8"
  | .outputFull => "failed to write whole buffer"

def kind : IoError → String
  | .os errno => errno.kind
  | .zeroByte => "InvalidInput"
  | .notText => "InvalidData"
  | .outputFull => "WriteZero"

/-- The failure as a record, the way logs show it. -/
def record : IoError → String
  | .os errno => String.join
      ["Os \x7b code: ", toString errno.code, ", kind: ", errno.kind, ", message: ", Text.quoted errno.text, " \x7d"]
  | e => String.join ["Error \x7b kind: ", e.kind, ", message: ", Text.quoted e.message, " \x7d"]

/-- The failure says that nothing has that name. -/
def isNotFound (e : IoError) : Bool := e = .os .noEntry

end IoError
end RouteBook
