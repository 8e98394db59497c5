import Coffer.Json.Error
import Coffer.Json.Encode

-- Every reason for which an operation of the library fails, and how it is told.

namespace Coffer

-- What the file system refuses, with the path as it was asked for. An injected
-- fault has a text of its own.
inductive SystemFault where
  | missing (path : String)
  | exists (path : String)
  | notDirectory (path : String)
  | isDirectory (path : String)
  | nameTooLong (path : String)
  | injected (message : String)
  deriving DecidableEq, Repr

namespace SystemFault

def numbered (code : Nat) (what path : String) : String :=
  s!"[Errno {code}] {what}: " ++ Text.quoted path

def message : SystemFault → String
  | .missing path => numbered 2 "No such file or directory" path
  | .exists path => numbered 17 "File exists" path
  | .notDirectory path => numbered 20 "Not a directory" path
  | .isDirectory path => numbered 21 "Is a directory" path
  | .nameTooLong path => numbered 36 "File name too long" path
  | .injected message => message

end SystemFault

-- Why a store could not do what it was asked for.
inductive StorageFault where
  | system (fault : SystemFault)
  | logClosed
  | logLocked (path : String)
  | corruptCommit (line : Nat) (path : String) (size : Nat) (error : Json.Error)
  | corruptDocument (path : String) (size : Nat) (error : Json.Error)
  | compaction (fault : SystemFault)
  | notRolledBack (cause : SystemFault)
  | notDatabase
  | cannotOpenDatabase
  | databaseClosed
  | noTable (name : String)
  | rejected
  | unsupportedKey (typeName : String)
  deriving DecidableEq, Repr

def StorageFault.message : StorageFault → String
  | .system fault => fault.message
  | .logClosed => "Log store is closed"
  | .logLocked path => s!"Log store is locked by another process: {path}"
  | .corruptCommit line path size error =>
      s!"Corrupt commit on line {line} of {path}: " ++ error.message size
  | .corruptDocument path size error => s!"Corrupt store file {path}: " ++ error.message size
  | .compaction fault => "Compaction failed: " ++ fault.message
  | .notRolledBack cause => "Commit failed and could not be rolled back: " ++ cause.message
  | .notDatabase => "file is not a database"
  | .cannotOpenDatabase => "unable to open database file"
  | .databaseClosed => "Database connection is closed"
  | .noTable name => s!"no such table: {name}"
  | .rejected => "rejected by trigger"
  | .unsupportedKey typeName =>
      "Error binding parameter 1: type " ++ Text.quoted typeName ++ " is not supported"

-- A value of the right type that cannot be used.
inductive Unusable where
  | emptyMnemonic
  | mnemonicSnapshot
  | schemaVersion (version : Value)
  | pairLength (position length : Nat)
  | keyLength (length : Nat)
  | cipherKeyLength
  | negativeCount
  | notByte
  | hexKey (path : String)
  | backendKind (kind : Value)
  | pathRequired (kind : String)
  | emptyName (path : String)
  | nullByte
  | document
  | unreadableDocument (fault : SystemFault)
  | options (error : Json.Error)
  | scalar (message : String)
  deriving Repr

def Unusable.message : Unusable → String
  | .emptyMnemonic => "Mnemonic must not be empty"
  | .mnemonicSnapshot => "A mnemonic secret manager cannot be restored from a snapshot"
  | .schemaVersion version => "Schema version must be in 0..255, got " ++ version.asText
  | .pairLength position length =>
      s!"dictionary update sequence element #{position} has length {length}; 2 is required"
  | .keyLength length => s!"Encryption key must be 32 bytes, got {length}"
  | .cipherKeyLength => "ChaCha20Poly1305 key must be 32 bytes."
  | .negativeCount => "negative count"
  | .notByte => "bytes must be in range(0, 256)"
  | .hexKey path => s!"Invalid hex encryption key in {path}"
  | .backendKind kind => kind.shown ++ " is not a valid BackendKind"
  | .pathRequired kind => "Backend " ++ Text.quoted kind ++ " requires a path"
  | .emptyName path => "PosixPath(" ++ Text.quoted path ++ ") has an empty name"
  | .nullByte => "embedded null byte"
  | .document => "Invalid YAML in config file"
  | .unreadableDocument fault => "Error reading config file: " ++ fault.message
  | .options error => "Invalid storage configuration: " ++ error.message 0
  | .scalar message => message

-- A value of the wrong type.
inductive Mistyped where
  | notMatchable (typeName : String)
  | notHashable (typeName : String)
  | notIterable (typeName : String)
  | notSequence (position : Nat)
  | notComparable (typeName : String)
  | notText (key value : Value)
  | unknownSnapshot (snapshot : Value)
  | notPath (typeName : String)
  | pathOfBytes
  | notInteger (typeName : String)
  | notBytes (typeName : String)
  | textWithoutEncoding
  deriving Repr

def Mistyped.message : Mistyped → String
  | .notMatchable typeName => "expected string or bytes-like object, got " ++ Text.quoted typeName
  | .notHashable typeName => "unhashable type: " ++ Text.quoted typeName
  | .notIterable typeName => Text.quoted typeName ++ " object is not iterable"
  | .notSequence position =>
      s!"cannot convert dictionary update sequence element #{position} to a sequence"
  | .notComparable typeName =>
      "'<=' not supported between instances of 'int' and " ++ Text.quoted typeName
  | .notText key value => "Records must map str to str, got " ++ key.shown ++ ": " ++ value.shown
  | .unknownSnapshot snapshot => "Unknown secret manager snapshot: " ++ snapshot.shown
  | .notPath typeName => "expected str, bytes or os.PathLike object, not " ++ typeName
  | .pathOfBytes =>
      "argument should be a str object or an os.PathLike object returning str, not <class 'bytes'>"
  | .notInteger typeName => Text.quoted typeName ++ " object cannot be interpreted as an integer"
  | .notBytes typeName => "cannot convert " ++ Text.quoted typeName ++ " object to bytes"
  | .textWithoutEncoding => "string argument without an encoding"

-- An integer that does not fit where it is put.
inductive Overflow where
  | size
  | byteCount
  | codePoint
  | double
  | databaseInteger
  deriving DecidableEq, Repr

def Overflow.message : Overflow → String
  | .size => "cannot fit 'int' into an index-sized integer"
  | .byteCount => "byte string is too large"
  | .codePoint => "Python int too large to convert to C int"
  | .databaseInteger => "Python int too large to convert to SQLite INTEGER"
  | .double => "int too large to convert to float"

inductive Failure where
  | storage (fault : StorageFault)
  | notFound (key : String)
  | notAuthentic (key : String)
  | schemaVersion (found expected : Value)
  | unreadable (key : String) (size : Nat) (error : Json.Error)
  | unwritable (key : String) (error : Json.EncodeError)
  | danglingAccount (index : Value)
  | unusable (reason : Unusable)
  | mistyped (reason : Mistyped)
  | overflow (reason : Overflow)
  | outOfMemory
  | noPolicy (snapshotName : String)
  | noMember (typeName member : String)
  | undecodable (fault : Utf8.Fault)
  | system (fault : SystemFault)
  | readTooDeep
  | writeTooDeep
  | documentTooDeep
  | noHome
  | unknownWord (word : String)
  | emptyNumeral
  deriving Repr

def Failure.message : Failure → String
  | .storage fault => "Storage error: " ++ fault.message
  | .notFound key => s!"Record not found: {key}"
  | .notAuthentic key => s!"Failed to decrypt record: {key}"
  | .schemaVersion found expected =>
      "Unsupported database schema version " ++ found.shown ++ " (expected " ++ expected.asText ++ ")"
  | .unreadable key size error => s!"Invalid record for {key}: " ++ error.message size
  | .unwritable key error => s!"Invalid record for {key}: " ++ error.message
  | .danglingAccount index => "Account index " ++ index.asText ++ " is registered but has no record"
  | .unusable reason => reason.message
  | .mistyped reason => reason.message
  | .overflow reason => reason.message
  | .outOfMemory => ""
  | .noPolicy name => Text.quoted s!"No snapshot policy registered for {name}"
  | .noMember typeName member => Text.quoted typeName ++ " object has no attribute " ++ Text.quoted member
  | .undecodable fault => fault.message
  | .system fault => fault.message
  | .readTooDeep => Json.Error.tooDeep.message 0
  | .writeTooDeep => Json.EncodeError.tooDeep.message
  | .documentTooDeep => "maximum recursion depth exceeded"
  | .noHome => "Could not determine home directory."
  | .unknownWord word => Text.quoted word
  | .emptyNumeral => "string index out of range"

-- A failure of the system below becomes a failure of the store.
def Failure.asStorage : Failure → Failure
  | .system fault => .storage (.system fault)
  | e => e

end Coffer
