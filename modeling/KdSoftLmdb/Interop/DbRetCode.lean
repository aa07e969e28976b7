import Mathlib

/-!
# Return codes and exceptions

`DbRetCode` is the C# enumeration of the native return codes. The native library
returns a plain `int`, so a value outside the named constants is possible and
is an error like any other. `ErrorUtil.checkRetCode` turns every code but
`SUCCESS` into an `LmdbException`.
-/

namespace KdSoftLmdb

/-- A native return code. -/
structure DbRetCode where
  code : Int
deriving DecidableEq

namespace DbRetCode

def keyExist : DbRetCode := ⟨-30799⟩
def notFound : DbRetCode := ⟨-30798⟩
def badDbi : DbRetCode := ⟨-30780⟩
def lastErrCode : DbRetCode := badDbi
def success : DbRetCode := ⟨0⟩
def eInval : DbRetCode := ⟨22⟩

/-- The named constants outside the range that `mdb_strerror` explains. -/
def names : List (Int × String) :=
  [(0, "SUCCESS"), (1, "EPERM"), (2, "ENOENT"), (3, "ESRCH"), (4, "EINTR"), (5, "EIO"),
   (6, "ENXIO"), (7, "E2BIG"), (8, "ENOEXEC"), (9, "EBADF"), (10, "ECHILD"), (11, "EAGAIN"),
   (12, "ENOMEM"), (13, "EACCES"), (14, "EFAULT"), (16, "EBUSY"), (17, "EEXIST"),
   (18, "EXDEV"), (19, "ENODEV"), (20, "ENOTDIR"), (21, "EISDIR"), (22, "EINVAL"),
   (23, "ENFILE"), (24, "EMFILE"), (25, "ENOTTY"), (27, "EFBIG"), (28, "ENOSPC"),
   (29, "ESPIPE"), (30, "EROFS"), (31, "EMLINK"), (32, "EPIPE"), (33, "EDOM"), (34, "ERANGE"),
   (36, "EDEADLK"), (38, "ENAMETOOLONG"), (39, "ENOLCK"), (40, "ENOSYS"), (41, "ENOTEMPTY"),
   (42, "EILSEQ"), (80, "STRUNCATE")]

/-- `Enum.ToString`: the constant's name, or the number when there is none. -/
def toText (ret : DbRetCode) : String :=
  match names.find? fun entry => entry.1 == ret.code with
  | some entry => entry.2
  | none => toString ret.code

end DbRetCode

/-- The exceptions that the wrapper throws, with the data their constructors get. -/
inductive Exception where
  | lmdb (errorCode : DbRetCode) (message : String)
  | objectDisposed (objectName : String)
  | argument (message : String)
  | argumentNull (paramName : String)
  | invalidOperation (message : String)
  | nullReference
  | overflow
deriving DecidableEq

/-- `new LmdbException(message)` leaves the error code at its default. -/
def Exception.lmdbText (message : String) : Exception := .lmdb ⟨0⟩ message

/-- Whether the exception is an `LmdbException`. -/
def Exception.isLmdb : Exception → Bool
  | .lmdb _ _ => true
  | _ => false

/-- What the wrapper takes from the .NET runtime and from LMDB as given. -/
structure Runtime where
  /-- The upper-case form that `StringComparer.OrdinalIgnoreCase` compares names by. -/
  ordinalIgnoreCase : String → String
  /-- The bytes that P/Invoke hands to LMDB for a `string` argument. -/
  marshal : String → List UInt8
  /-- The message text of `mdb_strerror`. -/
  mdbStrerror : DbRetCode → String

/-- The runtime as far as ASCII names go, with one text for every code. -/
def Runtime.ascii : Runtime where
  ordinalIgnoreCase name := String.ofList (name.toList.map Char.toUpper)
  marshal name := name.toList.map fun letter => letter.toNat.toUInt8
  mdbStrerror _ := "MDB error"

namespace ErrorUtil

/-- Texts of the wrapper's own codes, `dotNetLowError + 1` first. -/
def dotNetStrs : List String := ["Item count for PutMultiple exceeds buffer size."]

def mdbLowError : DbRetCode := ⟨-30800⟩
def dotNetLowError : DbRetCode := ⟨-41000⟩

def unknownStr (ret : DbRetCode) : String := s!"Unknown LMDB error code: {ret.toText}."

def dotNetStr (ret : DbRetCode) : String :=
  if dotNetLowError.code < ret.code ∧
      ret.code ≤ dotNetLowError.code + dotNetStrs.length then
    dotNetStrs.getD (ret.code - dotNetLowError.code - 1).toNat ""
  else unknownStr ret

/-- The exception for a return code, `none` for `SUCCESS`. -/
def checkRetCode (runtime : Runtime) (ret : DbRetCode) : Option Exception :=
  if ret ≠ .success then
    let errStr :=
      if mdbLowError.code < ret.code ∧ ret.code ≤ DbRetCode.lastErrCode.code then
        runtime.mdbStrerror ret
      else dotNetStr ret
    some (.lmdb ret errStr)
  else none

/-- Only `SUCCESS` passes; any other code is reported by an `LmdbException` that carries it. -/
theorem checkRetCode_eq_none_iff (runtime : Runtime) (ret : DbRetCode) :
    checkRetCode runtime ret = none ↔ ret = .success := by
  unfold checkRetCode
  split <;> simp_all

/-- A check that throws tells the code that LMDB returned. -/
theorem checkRetCode_eq_some {runtime : Runtime} {ret : DbRetCode} {exception : Exception}
    (threw : checkRetCode runtime ret = some exception) :
    ret ≠ .success ∧ ∃ message, exception = .lmdb ret message := by
  unfold checkRetCode at threw
  split at threw
  · rename_i failed
    cases threw
    exact ⟨failed, _, rfl⟩
  · cases threw

end ErrorUtil

end KdSoftLmdb
