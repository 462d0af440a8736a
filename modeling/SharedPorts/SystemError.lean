/-!
# `SharedPorts.SystemError` — what the operating system refuses

Files, programs and sockets fail for a small number of reasons, each with its own number.
-/

namespace SharedPorts

/-- Why the operating system refuses a request. -/
inductive SystemError
  | notFound
  | busy
  | alreadyExists
  | notADirectory
  | isADirectory
  | nameTooLong
  | addressInUse
  | addressNotAvailable
  | notText
  | nulInName
  deriving DecidableEq, Repr

/-- What an error says: the system's own words and number, or that bytes are no text or no name. -/
def SystemError.message : SystemError → String
  | .notFound => "No such file or directory (os error 2)"
  | .busy => "Device or resource busy (os error 16)"
  | .alreadyExists => "File exists (os error 17)"
  | .notADirectory => "Not a directory (os error 20)"
  | .isADirectory => "Is a directory (os error 21)"
  | .nameTooLong => "File name too long (os error 36)"
  | .addressInUse => "Address already in use (os error 98)"
  | .addressNotAvailable => "Cannot assign requested address (os error 99)"
  | .notText => "stream did not contain valid UTF-8"
  | .nulInName => "file name contained an unexpected NUL byte"

end SharedPorts
