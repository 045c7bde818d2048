/-! Failures reported by the operating system: a number, the text the system gives for it, and the kind of
failure it belongs to. -/

namespace RouteBook

/-- The number of a failed operating system call. -/
structure Errno where
  code : Nat
  deriving DecidableEq, Repr

namespace Errno

/-- Nothing has that name. -/
def noEntry : Errno := ⟨2⟩

/-- The name is taken. -/
def taken : Errno := ⟨17⟩

/-- Something other than a directory stands where a directory is needed. -/
def notDirectory : Errno := ⟨20⟩

/-- A directory stands where a file is needed. -/
def isDirectory : Errno := ⟨21⟩

/-- A name or a whole path is longer than the system takes. -/
def nameTooLong : Errno := ⟨36⟩

/-- Too many symbolic links in one path. -/
def linkLoop : Errno := ⟨40⟩

/-- Numbers, texts and kinds; a number without a kind of its own has none. -/
def table : List (Nat × String × Option String) :=
  [(0, "Success", none),
   (1, "Operation not permitted", some "PermissionDenied"),
   (2, "No such file or directory", some "NotFound"),
   (3, "No such process", none),
   (4, "Interrupted system call", some "Interrupted"),
   (5, "Input/output error", none),
   (6, "No such device or address", none),
   (7, "Argument list too long", some "ArgumentListTooLong"),
   (8, "Exec format error", none),
   (9, "Bad file descriptor", none),
   (10, "No child processes", none),
   (11, "Resource temporarily unavailable", some "WouldBlock"),
   (12, "Cannot allocate memory", some "OutOfMemory"),
   (13, "Permission denied", some "PermissionDenied"),
   (14, "Bad address", none),
   (15, "Block device required", none),
   (16, "Device or resource busy", some "ResourceBusy"),
   (17, "File exists", some "AlreadyExists"),
   (18, "Invalid cross-device link", some "CrossesDevices"),
   (19, "No such device", none),
   (20, "Not a directory", some "NotADirectory"),
   (21, "Is a directory", some "IsADirectory"),
   (22, "Invalid argument", some "InvalidInput"),
   (23, "Too many open files in system", none),
   (24, "Too many open files", none),
   (25, "Inappropriate ioctl for device", none),
   (26, "Text file busy", some "ExecutableFileBusy"),
   (27, "File too large", some "FileTooLarge"),
   (28, "No space left on device", some "StorageFull"),
   (29, "Illegal seek", some "NotSeekable"),
   (30, "Read-only file system", some "ReadOnlyFilesystem"),
   (31, "Too many links", some "TooManyLinks"),
   (32, "Broken pipe", some "BrokenPipe"),
   (33, "Numerical argument out of domain", none),
   (34, "Numerical result out of range", none),
   (35, "Resource deadlock avoided", some "Deadlock"),
   (36, "File name too long", some "InvalidFilename"),
   (37, "No locks available", none),
   (38, "Function not implemented", some "Unsupported"),
   (39, "Directory not empty", some "DirectoryNotEmpty"),
   (40, "Too many levels of symbolic links", some "FilesystemLoop"),
   (42, "No message of desired type", none),
   (43, "Identifier removed", none),
   (44, "Channel number out of range", none),
   (45, "Level 2 not synchronized", none),
   (46, "Level 3 halted", none),
   (47, "Level 3 reset", none),
   (48, "Link number out of range", none),
   (49, "Protocol driver not attached", none),
   (50, "No CSI structure available", none),
   (51, "Level 2 halted", none),
   (52, "Invalid exchange", none),
   (53, "Invalid request descriptor", none),
   (54, "Exchange full", none),
   (55, "No anode", none),
   (56, "Invalid request code", none),
   (57, "Invalid slot", none),
   (59, "Bad font file format", none),
   (60, "Device not a stream", none),
   (61, "No data available", none),
   (62, "Timer expired", none),
   (63, "Out of streams resources", none),
   (64, "Machine is not on the network", none),
   (65, "Package not installed", none),
   (66, "Object is remote", none),
   (67, "Link has been severed", none),
   (68, "Advertise error", none),
   (69, "Srmount error", none),
   (70, "Communication error on send", none),
   (71, "Protocol error", none),
   (72, "Multihop attempted", none),
   (73, "RFS specific error", none),
   (74, "Bad message", none),
   (75, "Value too large for defined data type", none),
   (76, "Name not unique on network", none),
   (77, "File descriptor in bad state", none),
   (78, "Remote address changed", none),
   (79, "Can not access a needed shared library", none),
   (80, "Accessing a corrupted shared library", none),
   (81, ".lib section in a.out corrupted", none),
   (82, "Attempting to link in too many shared libraries", none),
   (83, "Cannot exec a shared library directly", none),
   (84, "Invalid or incomplete multibyte or wide character", none),
   (85, "Interrupted system call should be restarted", none),
   (86, "Streams pipe error", none),
   (87, "Too many users", none),
   (88, "Socket operation on non-socket", none),
   (89, "Destination address required", none),
   (90, "Message too long", none),
   (91, "Protocol wrong type for socket", none),
   (92, "Protocol not available", none),
   (93, "Protocol not supported", none),
   (94, "Socket type not supported", none),
   (95, "Operation not supported", some "Unsupported"),
   (96, "Protocol family not supported", none),
   (97, "Address family not supported by protocol", none),
   (98, "Address already in use", some "AddrInUse"),
   (99, "Cannot assign requested address", some "AddrNotAvailable"),
   (100, "Network is down", some "NetworkDown"),
   (101, "Network is unreachable", some "NetworkUnreachable"),
   (102, "Network dropped connection on reset", none),
   (103, "Software caused connection abort", some "ConnectionAborted"),
   (104, "Connection reset by peer", some "ConnectionReset"),
   (105, "No buffer space available", none),
   (106, "Transport endpoint is already connected", none),
   (107, "Transport endpoint is not connected", some "NotConnected"),
   (108, "Cannot send after transport endpoint shutdown", none),
   (109, "Too many references: cannot splice", none),
   (110, "Connection timed out", some "TimedOut"),
   (111, "Connection refused", some "ConnectionRefused"),
   (112, "Host is down", none),
   (113, "No route to host", some "HostUnreachable"),
   (114, "Operation already in progress", none),
   (115, "Operation now in progress", some "InProgress"),
   (116, "Stale file handle", some "StaleNetworkFileHandle"),
   (117, "Structure needs cleaning", none),
   (118, "Not a XENIX named type file", none),
   (119, "No XENIX semaphores available", none),
   (120, "Is a named type file", none),
   (121, "Remote I/O error", none),
   (122, "Disk quota exceeded", some "QuotaExceeded"),
   (123, "No medium found", none),
   (124, "Wrong medium type", none),
   (125, "Operation canceled", none),
   (126, "Required key not available", none),
   (127, "Key has expired", none),
   (128, "Key has been revoked", none),
   (129, "Key was rejected by service", none),
   (130, "Owner died", none),
   (131, "State not recoverable", none),
   (132, "Operation not possible due to RF-kill", none),
   (133, "Memory page has hardware error", none)]

/-- The system's text for a failure. -/
def text (e : Errno) : String :=
  match table.lookup e.code with
  | some (text, _) => text
  | none => "Unknown error " ++ toString e.code

/-- The name of the kind of failure. -/
def kind (e : Errno) : String := ((table.lookup e.code).bind Prod.snd).getD "Uncategorized"

end Errno
end RouteBook
