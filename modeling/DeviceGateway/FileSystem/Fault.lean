import DeviceGateway.Error

/-!
# Faults of the file system

The reasons for which an operation on files or directories is refused, with the wording of the
system.
-/

namespace DeviceGateway

/-- Why the system refuses an operation on files. -/
inductive FileFault where
  /-- There is no such file or directory. -/
  | missing
  /-- There is something already. -/
  | occupied
  | notDirectory
  | isDirectory
  /-- The operation makes no sense for these paths. -/
  | invalid
  | nameTooLong
  | notEmpty
  | busy
  /-- The path holds the character that ends texts for the system. -/
  | nulInPath
  deriving DecidableEq, Repr, Inhabited

namespace FileFault

/-- The fault as the system describes it. -/
def description : FileFault → String
  | missing => "No such file or directory"
  | occupied => "File exists"
  | notDirectory => "Not a directory"
  | isDirectory => "Is a directory"
  | invalid => "Invalid argument"
  | nameTooLong => "File name too long"
  | notEmpty => "Directory not empty"
  | busy => "Device or resource busy"
  | nulInPath => "file name contained an unexpected NUL byte"

/-- The number that the system gives to a fault; a path that never reaches it gets none. -/
def code? : FileFault → Option Nat
  | missing => some 2
  | busy => some 16
  | occupied => some 17
  | notDirectory => some 20
  | isDirectory => some 21
  | invalid => some 22
  | nameTooLong => some 36
  | notEmpty => some 39
  | nulInPath => none

/-- The fault that the system gives a number to. -/
def ofCode? (code : Nat) : Option FileFault :=
  [missing, busy, occupied, notDirectory, isDirectory, invalid, nameTooLong, notEmpty].find?
    (·.code? == some code)

theorem ofCode?_code {f : FileFault} {n : Nat} (h : f.code? = some n) : ofCode? n = some f := by
  cases f <;> simp [code?] at h <;> subst h <;> rfl

def kind : FileFault → String
  | missing => "NotFound"
  | occupied => "AlreadyExists"
  | notDirectory => "NotADirectory"
  | isDirectory => "IsADirectory"
  | invalid => "InvalidInput"
  | nameTooLong => "InvalidFilename"
  | notEmpty => "DirectoryNotEmpty"
  | busy => "ResourceBusy"
  | nulInPath => "InvalidInput"

/-- **The fault in words.** -/
def message (f : FileFault) : String :=
  match f.code? with
  | some n => s!"{f.description} (os error {n})"
  | none => f.description

/-- The fault as the gateway reports it. -/
def toError (f : FileFault) : GatewayError := .io f.message

/-- The fault of an operation on a path, when the path may well be absent. -/
def toErrorAt (f : FileFault) (path : String) : GatewayError :=
  if f = missing then .notFound path else f.toError

end FileFault

end DeviceGateway
