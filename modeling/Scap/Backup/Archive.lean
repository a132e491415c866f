import Scap.Lib.Cipher
import Scap.Py.Struct

/-!
# The backup archive

A header of fixed width, which is authenticated as associated data, and the encrypted SQLite image.
`backupArchive` is the writer from the passphrase to the bytes, `decryptArchive` the reader.

SQLite's online backup, Argon2id and AES-GCM are outside: the image that a snapshot comes to is an
argument, `argon2` derives a key from a passphrase and a salt under the fixed parameters, and `Gcm`
appends a tag of 16 bytes. A passphrase with a lone surrogate is none.
-/

namespace Scap.Backup

open Scap.Py Scap.Lib

/-- An error, apart from what the interpreter and the system raise. -/
inductive Failure where
  | backup (text : String)
  | structError
  | os
  | database
  deriving DecidableEq, Repr

/-! ## Constants -/

def maxDatabaseBytes : Nat := 64 * 1024 * 1024
def magic : Bytes := utf8 "SCAPBK01"
def version : Int := 1
def kdfTime : Int := 3
def kdfMemoryKib : Int := 64 * 1024
def kdfParallelism : Int := 1
def tagBytes : Nat := 16

/-- `>8sBIIIQQ16s12s`. -/
def header : List Struct.Field :=
  [.str 8, .uint 1, .uint 4, .uint 4, .uint 4, .uint 8, .uint 8, .str 16, .str 12]

def headerSize : Nat := Struct.size header

/-- The end of the year 9999. -/
def maxCreated : Int := 253402300799

/-- How every SQLite database file begins. -/
def sqliteMagic : Bytes := utf8 "SQLite format 3" ++ [0]

/-! ## Outside -/

/-- A database file as SQLite writes it. -/
structure Image where
  bytes : Bytes
  isSqlite : sqliteMagic <+: bytes

/-- What a snapshot finds: the size of the source, the image that the online backup writes, and the
failure of the backup or of the validation of its result. -/
structure Source where
  size : Nat
  image : Image
  failure : Option Failure

/-- AES-256-GCM with its tag. -/
structure Gcm extends Cipher Bytes Bytes Bytes Bytes Bytes where
  tag : ∀ k n a p, (encrypt k n a p).length = p.length + tagBytes

/-- `secrets.token_bytes(16), secrets.token_bytes(12)`. -/
structure Draw where
  salt : Bytes
  nonce : Bytes
  salt_length : salt.length = 16
  nonce_length : nonce.length = 12

/-! ## Writing -/

variable (gcm : Gcm) (argon2 : Bytes → Bytes → Bytes)

def passphraseBytes (passphrase : String) : Except Failure Bytes :=
  if 16 ≤ (utf8 passphrase).length ∧ (utf8 passphrase).length ≤ 1024 then .ok (utf8 passphrase)
  else .error (.backup "Passphrase must contain 16-1024 UTF-8 bytes.")

/-- `_snapshot`, and the payload that is read back. -/
def snapshot (source : Source) : Except Failure Image :=
  if maxDatabaseBytes < source.size then
    .error (.backup "Database exceeds the 64 MiB local backup limit.")
  else
    match source.failure with
    | some e => .error e
    | none =>
      if maxDatabaseBytes < source.image.bytes.length then
        .error (.backup "Database exceeds the 64 MiB local backup limit.")
      else .ok source.image

/-- `_HEADER.pack`. -/
def packHeader (created : Int) (length : Nat) (draw : Draw) : Option Bytes :=
  Struct.pack header [.str magic, .uint version, .uint kdfTime, .uint kdfMemoryKib,
    .uint kdfParallelism, .uint created, .uint length, .str draw.salt, .str draw.nonce]

/-- One run of the writer: its arguments, the source, the clock and what was drawn. -/
structure Run where
  passphrase : String
  source : Source
  created : Int
  draw : Draw

/-- The archive of a run, as it is written before it is published. -/
def backupArchive (run : Run) : Except Failure Bytes := do
  let passphrase ← passphraseBytes run.passphrase
  let image ← snapshot run.source
  match packHeader run.created image.bytes.length run.draw with
  | none => .error .structError
  | some header =>
    .ok (header ++ gcm.encrypt (argon2 passphrase run.draw.salt) run.draw.nonce header image.bytes)

/-! ## Reading -/

/-- `_decrypt_archive`, of a file of which `fstat` said `size`. -/
def decryptArchive (passphrase : String) (size : Nat) (content : Bytes) :
    Except Failure (Bytes × Int) := do
  let passphrase ← passphraseBytes passphrase
  if ¬ (headerSize + tagBytes ≤ size ∧ size ≤ headerSize + tagBytes + maxDatabaseBytes) then
    .error (.backup "Backup archive has an invalid size.")
  else if (content.take headerSize).length ≠ headerSize then
    .error (.backup "Backup archive has an invalid header.")
  else
    match Struct.unpack header (content.take headerSize) with
    | some [.str magic', .uint version', .uint time, .uint memory, .uint parallelism,
        .uint created, .uint length, .str salt, .str nonce] =>
      if (magic', version', time, memory, parallelism) ≠
            (magic, version, kdfTime, kdfMemoryKib, kdfParallelism) ∨
          ¬ (16 ≤ length ∧ length ≤ maxDatabaseBytes) ∨ ¬ (1 ≤ created ∧ created ≤ maxCreated) then
        .error (.backup "Backup archive has an unsupported header.")
      else if size ≠ headerSize + length.toNat + tagBytes then
        .error (.backup "Backup archive length does not match its header.")
      else
        let encrypted := (content.drop headerSize).take (length.toNat + tagBytes + 1)
        if encrypted.length ≠ length.toNat + tagBytes then
          .error (.backup "Backup archive length changed while reading.")
        else
          match gcm.decrypt (argon2 passphrase salt) nonce (content.take headerSize) encrypted with
          | none =>
            .error (.backup "Backup authentication failed; password or archive is invalid.")
          | some payload =>
            if sqliteMagic <+: payload then .ok (payload, created)
            else .error (.backup "Authenticated payload is not a SQLite database.")
    | _ => .error .structError

end Scap.Backup
