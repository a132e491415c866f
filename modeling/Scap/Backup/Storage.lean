import Scap.Backup.Archive
import Scap.Lib.Files

/-!
# Private temporary storage

Where an archive or a database is written before it is published under the name that was asked for:
a new private directory beside it, which is removed whatever happens. `World` is what the rest of
the system does meanwhile: the operations that it lets fail, and an entry that another process puts at
the output path at the last moment.
-/

namespace Scap.Backup

open Scap.Py Scap.Lib

/-- The operations that raise an `OSError`. -/
inductive Fault where
  | openInput
  | createDirectory
  | writeNew
  | connect
  | fsync
  | link
  | rmtree
  deriving DecidableEq, Repr

structure World where
  /-- `private_directory_scope` refuses the parent. -/
  scopeDenied : Bool
  /-- `secrets.token_hex(16)` of each attempt. -/
  token : Nat → String
  fails : Fault → Bool
  appears : Option (Entry Bytes)

variable (w : World) (fs : Files Bytes)

/-- `_checked_path`, of an absolute path. -/
def checkedPath (path : Path) (existing : Bool) : Except Failure Unit :=
  if path.inits.any fun part => fs part = some .link then
    .error (.backup "Linked paths are not supported.")
  else if existing then
    match fs path with
    | some (.file _) => .ok ()
    | _ => .error (.backup "Input must be an existing regular file.")
  else if (fs path).isSome then .error (.backup "Output must be a new file.")
  else if fs path.dropLast ≠ some .directory then
    .error (.backup "Output directory must already exist.")
  else .ok ()

/-- `_open_input`, and what is read. -/
def openInput (path : Path) : Except Failure Bytes :=
  if w.fails .openInput then .error .os
  else
    match fs path with
    | some (.file content) => .ok content
    | _ => .error (.backup "Input must remain the checked regular file.")

/-- The directory that `_private_temporary_directory` creates. -/
def reserve (parent : Path) (start : String) : Except Failure Path :=
  if w.scopeDenied then
    .error (.backup ("Output requires a private directory. Create a NEW directory with " ++
      "python -m scripts.local_storage mkdir --directory PATH."))
  else if w.fails .createDirectory then .error .os
  else
    match (List.range 32).find? fun k => fs (parent ++ [start ++ w.token k]) = none with
    | some k => .ok (parent ++ [start ++ w.token k])
    | none => .error (.backup "Could not reserve private temporary storage.")

/-- `with _private_temporary_directory(...)` around `body`. -/
def withTemporary {ρ : Type} (parent : Path) (start : String)
    (body : Files Bytes → Path → Files Bytes × Except Failure ρ) : Files Bytes × Except Failure ρ :=
  match reserve w fs parent start with
  | .error e => (fs, .error e)
  | .ok directory =>
    let (fs, r) := body (fs.put directory .directory) directory
    if w.fails .rmtree then (fs, .error .os) else (fs.removeTree directory, r)

/-- `_write_new`. -/
def writeNew (path : Path) (payload : Bytes) : Files Bytes × Except Failure Unit :=
  if w.fails .writeNew then (fs, .error .os) else (fs.put path (.file payload), .ok ())

/-- `_publish_new`. The other process comes between the check and the link. -/
def publishNew (temporary output : Path) : Files Bytes × Except Failure Unit :=
  match checkedPath fs output false with
  | .error e => (fs, .error e)
  | .ok () =>
    let fs := match w.appears with
      | none => fs
      | some e => fs.put output e
    if w.fails .link then (fs, .error .os)
    else
      match fs output, fs temporary with
      | some _, _ => (fs, .error (.backup "Output must be a new file."))
      | none, none => (fs, .error .os)
      | none, some e => (fs.put output e, .ok ())

end Scap.Backup
