import DecentDb.Error
import DecentDb.Library.CallSequences
import DecentDb.Library.LittleEndian
import DecentDb.Library.Masking

/-! Transparent file encryption: a prefix that identifies the key, and behind it the file's
bytes combined with a keystream. The file underneath is the in-memory one, which reads short
past its end and fills extensions with zeros.
-/

namespace DecentDb.Vfs

open LittleEndian (leBytes leNat)
open CallSequences (Component)
open Masking (mask)

-- The file underneath

namespace MemFile

section

variable (data : List UInt8)

def resize (length : Nat) : List UInt8 :=
  data.take length ++ List.replicate (length - data.length) 0

def readAt (offset length : Nat) : List UInt8 :=
  if data.length ≤ offset then [] else (data.drop offset).take length

def writeAt (offset : Nat) (bytes : List UInt8) : List UInt8 :=
  let stop := offset + bytes.length
  let grown := if data.length < stop then resize data stop else data
  grown.take offset ++ bytes ++ grown.drop stop

end

/-- Writes one after the other; nothing is written for an empty buffer. -/
def writeAllAtMany (data : List UInt8) : List (Nat × List UInt8) → List UInt8
  | [] => data
  | (offset, bytes) :: rest =>
    writeAllAtMany (if bytes.isEmpty then data else writeAt data offset bytes) rest

end MemFile

-- The prefix

inductive FileKind where
  | database
  | wal
  | syncJournal
  | coordination
  deriving DecidableEq, Repr

def FileKind.id : FileKind → UInt8
  | .database => 1
  | .wal => 2
  | .syncJournal => 3
  | .coordination => 4

/-- The hash and the keystream: any functions. -/
class TdePrimitives where
  sha256 : List UInt8 → Vector UInt8 32
  keystream : Vector UInt8 32 → Vector UInt8 12 → Nat → UInt8

structure FileCrypto where
  streamKey : Vector UInt8 32
  nonce : Vector UInt8 12

def tdeMagic : List UInt8 := [68, 68, 66, 84, 68, 69, 49, 0]

def tdeVersion : Nat := 1

def tdeAlgorithm : UInt8 := 1

def tdePrefixSize : Nat := 128

section Prefix

variable [TdePrimitives]

def sha256Parts (parts : List (List UInt8)) : Vector UInt8 32 :=
  TdePrimitives.sha256 parts.flatten

def textBytes (text : String) : List UInt8 := text.toUTF8.toList

def deriveMasterKey (key : List UInt8) : Vector UInt8 32 :=
  sha256Parts [textBytes "decentdb tde master key v1", key]

def deriveVerifier (key salt : List UInt8) : Vector UInt8 32 :=
  sha256Parts [textBytes "decentdb tde verifier v1", (deriveMasterKey key).toList, salt]

def deriveFileCrypto (key : List UInt8) (kind : FileKind) (salt : List UInt8) : FileCrypto where
  streamKey := sha256Parts
    [textBytes "decentdb tde file key v1", (deriveMasterKey key).toList, salt, [kind.id]]
  nonce := ((sha256Parts
    [textBytes "decentdb tde nonce v1", (deriveMasterKey key).toList, salt, [kind.id]]).take 12).cast
      (by decide)

/-- Magic, version, kind, algorithm, the salt at 16 and the verifier at 48. -/
def encodePrefix (kind : FileKind) (key : List UInt8) (salt : Vector UInt8 32) : List UInt8 :=
  tdeMagic ++ (leBytes 4 tdeVersion ++ ([kind.id, tdeAlgorithm, 0, 0] ++ (salt.toList
    ++ ((deriveVerifier key salt.toList).toList ++ List.replicate 48 0))))

/-- The salt of a prefix that was made for this kind of file with this key. -/
def decodePrefix (path : String) (header : List UInt8) (expectedKind : FileKind)
    (key : List UInt8) : DbResult (List UInt8) :=
  if header.take 8 ≠ tdeMagic then
    .error (.corruption s!"{path} is not encrypted with DecentDB TDE")
  else if leNat ((header.drop 8).take 4) ≠ tdeVersion then
    .error (.unsupportedFormatVersion (leNat ((header.drop 8).take 4)))
  else if header[12]? ≠ some expectedKind.id then
    .error (.corruption s!"{path} has a TDE prefix for a different file kind")
  else if header[13]? ≠ some tdeAlgorithm then
    .error (.corruption s!"{path} uses an unsupported TDE algorithm")
  else
    let salt := (header.drop 16).take 32
    if (header.drop 48).take 32 ≠ (deriveVerifier key salt).toList then
      .error (.corruption s!"{path} could not be opened with the supplied encryption key")
    else .ok salt

def readPrefix (path : String) (data : List UInt8) (expectedKind : FileKind) (key : List UInt8)
    : DbResult (List UInt8) :=
  if data.length < tdePrefixSize then
    .error (.corruption s!"{path} has a truncated DecentDB TDE prefix")
  else decodePrefix path (data.take tdePrefixSize) expectedKind key

/-- Writes a prefix with a new salt; the file has nothing behind it. -/
def initializePrefix (data : List UInt8) (kind : FileKind) (key : List UInt8)
    (salt : Vector UInt8 32) : List UInt8 :=
  MemFile.resize (MemFile.writeAt data 0 (encodePrefix kind key salt)) tdePrefixSize

end Prefix

-- The encrypted file

structure EncryptedVfsFile where
  inner : List UInt8
  path : String
  kind : FileKind
  crypto : FileCrypto

inductive OpenMode where
  | createNew
  | openExisting
  | openOrCreate
  deriving DecidableEq, Repr

section Encrypted

variable [TdePrimitives]

/-- Opens a file that holds the given bytes; a new file gets the salt. -/
def EncryptedVfs.open (path : String) (key : List UInt8) (mode : OpenMode) (kind : FileKind)
    (salt : Vector UInt8 32) (data : List UInt8) : DbResult EncryptedVfsFile :=
  if mode = .createNew || (mode = .openOrCreate && data.isEmpty) then
    .ok {
      inner := initializePrefix data kind key salt
      path
      kind
      crypto := deriveFileCrypto key kind salt.toList
    }
  else do
    let salt ← readPrefix path data kind key
    .ok { inner := data, path, kind, crypto := deriveFileCrypto key kind salt }

def applyKeystream (crypto : FileCrypto) (offset : Nat) (bytes : List UInt8) : List UInt8 :=
  mask (TdePrimitives.keystream crypto.streamKey crypto.nonce) offset bytes

def physicalOffset (logicalOffset : UInt64) : DbResult Nat :=
  if logicalOffset.toNat + tdePrefixSize < 2 ^ 64 then
    .ok (logicalOffset.toNat + tdePrefixSize)
  else .error (.internal "encrypted file offset overflow")

namespace EncryptedVfsFile

section

variable (file : EncryptedVfsFile)

def readAt (offset : UInt64) (length : Nat) : DbResult (List UInt8) := do
  let physical ← physicalOffset offset
  .ok (applyKeystream file.crypto offset.toNat (MemFile.readAt file.inner physical length))

def writeAt (offset : UInt64) (bytes : List UInt8) : DbResult EncryptedVfsFile := do
  let encrypted := applyKeystream file.crypto offset.toNat bytes
  let physical ← physicalOffset offset
  .ok { file with inner := MemFile.writeAt file.inner physical encrypted }

/-- Every buffer is encrypted before the first is written. -/
def writeAllAtMany (writes : List (UInt64 × List UInt8)) : DbResult EncryptedVfsFile := do
  let encrypted ← writes.mapM fun (offset, bytes) => do
    let physical ← physicalOffset offset
    .ok (physical, applyKeystream file.crypto offset.toNat bytes)
  .ok { file with inner := MemFile.writeAllAtMany file.inner encrypted }

def fileSize : Nat := file.inner.length - tdePrefixSize

def setLen (length : UInt64) : DbResult EncryptedVfsFile := do
  let physical ← physicalOffset length
  .ok { file with inner := MemFile.resize file.inner physical }

end

end EncryptedVfsFile

end Encrypted

-- Calls

inductive FileCall where
  | readAt (offset : UInt64) (length : Nat)
  | writeAt (offset : UInt64) (bytes : List UInt8)
  | writeAllAtMany (writes : List (UInt64 × List UInt8))
  | setLen (length : UInt64)
  | fileSize
  | reopen
  deriving DecidableEq, Repr

inductive FileAnswer where
  | read (bytes : List UInt8)
  | written (count : Nat)
  | size (length : Nat)
  | done
  deriving DecidableEq, Repr

/-- A file that stores the bytes as they are. -/
def plainStep (data : List UInt8) : FileCall → List UInt8 × DbResult FileAnswer
  | .readAt offset length => (data, .ok (.read (MemFile.readAt data offset.toNat length)))
  | .writeAt offset bytes => (MemFile.writeAt data offset.toNat bytes, .ok (.written bytes.length))
  | .writeAllAtMany writes =>
    (MemFile.writeAllAtMany data (writes.map fun (offset, bytes) => (offset.toNat, bytes)),
      .ok .done)
  | .setLen length => (MemFile.resize data length.toNat, .ok .done)
  | .fileSize => (data, .ok (.size data.length))
  | .reopen => (data, .ok .done)

def plainFile : Component (List UInt8) FileCall (DbResult FileAnswer) := ⟨plainStep⟩

/-- A call that fails leaves the file as it is. -/
def orUnchanged (file : EncryptedVfsFile) (answer : FileAnswer)
    : DbResult EncryptedVfsFile → EncryptedVfsFile × DbResult FileAnswer
  | .ok changed => (changed, .ok answer)
  | .error error => (file, .error error)

variable [TdePrimitives]

def encryptedStep (key : List UInt8) (file : EncryptedVfsFile)
    : FileCall → EncryptedVfsFile × DbResult FileAnswer
  | .readAt offset length => (file, (file.readAt offset length).map .read)
  | .writeAt offset bytes => orUnchanged file (.written bytes.length) (file.writeAt offset bytes)
  | .writeAllAtMany writes => orUnchanged file .done (file.writeAllAtMany writes)
  | .setLen length => orUnchanged file .done (file.setLen length)
  | .fileSize => (file, .ok (.size file.fileSize))
  | .reopen =>
    orUnchanged file .done
      (EncryptedVfs.open file.path key .openExisting file.kind (Vector.replicate 32 0) file.inner)

def encryptedFile (key : List UInt8)
    : Component EncryptedVfsFile FileCall (DbResult FileAnswer) := ⟨encryptedStep key⟩

end DecentDb.Vfs
