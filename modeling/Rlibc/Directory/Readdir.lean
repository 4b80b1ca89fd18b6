import Rlibc.Foundations.ByteOrder
import Rlibc.Machine

/-!
# Directory streams

`opendir`, `readdir` and `rewinddir`.  A stream holds the bytes of the last `getdents64` and a
cursor into them; behind the filled part stand the bytes of earlier calls.  A slice of the source
panics outside its bounds, and the kernel's results are handed out one at a time.
-/

namespace Rlibc.Directory

open ByteOrder

def direntBufferSize : Nat := 4096

def direntNameCapacity : Nat := 256

def linuxDirent64FixedSize : Nat := 19

/-- `Dirent`; a `c_char` is kept as its byte. -/
structure Dirent where
  dIno : Nat
  dOff : Int
  dReclen : Nat
  dType : UInt8
  dName : List UInt8
deriving DecidableEq

structure DirStream where
  fd : Int
  cursor : Nat
  filled : Nat
  buffer : List UInt8
  entry : Dirent
deriving DecidableEq

/-- What one `getdents64` does: it fails, or it writes bytes to the front of the buffer. -/
inductive Getdents64 where
  | error (raw : Int) (h : raw < 0 ∧ FitsCLong (-raw))
  | bytes (data : List UInt8) (h : data.length ≤ direntBufferSize)
deriving DecidableEq

/-- Why a call does not return: it panics, or the kernel has no result for it. -/
inductive Stop where
  | panicked
  | usedUp
deriving DecidableEq

def errnoFromRaw (raw : Int) : Int := (cIntTryFrom (-raw)).getD 0x7fffffff

/-! ## Reading numbers -/

/-- `&bytes[start..stop]`. -/
def slice (bytes : List UInt8) (start stop : Nat) : Except Stop (List UInt8) :=
  if start ≤ stop ∧ stop ≤ bytes.length then .ok ((bytes.drop start).take (stop - start))
  else .error .panicked

/-- `bytes[index]`. -/
def byteAt (bytes : List UInt8) (index : Nat) : Except Stop UInt8 :=
  match bytes[index]? with
  | some byte => .ok byte
  | none => .error .panicked

def parseU64 (bytes : List UInt8) : Nat := ofLeBytes bytes

/-- `i64::from_ne_bytes`, in two's complement. -/
def parseI64 (bytes : List UInt8) : Int :=
  if ofLeBytes bytes < 0x8000000000000000 then ofLeBytes bytes
  else ofLeBytes bytes - 0x10000000000000000

def parseU16 (bytes : List UInt8) : Nat := ofLeBytes bytes

/-! ## The next entry -/

/-- What `reset_entry_name` leaves. -/
def resetEntryName : List UInt8 := List.replicate direntNameCapacity 0

/-- The loop of `fill_user_entry` from `index` on. -/
def copyName (name : List UInt8) (index : Nat) : List UInt8 → List UInt8
  | [] => name
  | byte :: bytes => copyName (name.set index byte) (index + 1) bytes

def fillUserEntry (stream : DirStream) (ino : Nat) (off : Int) (reclen : Nat) (dType : UInt8)
    (nameBytes : List UInt8) : DirStream :=
  { stream with
    entry :=
      { dIno := ino
        dOff := off
        dReclen := reclen
        dType := dType
        dName := copyName resetEntryName 0 nameBytes } }

/-- `refill`, with what the kernel answers to it. -/
def refill (stream : DirStream) : Getdents64 → Except Int Nat × DirStream
  | .error raw _ => (.error (errnoFromRaw raw), stream)
  | .bytes data _ =>
    (.ok data.length,
      { stream with
        cursor := 0
        filled := data.length
        buffer := data ++ stream.buffer.drop data.length })

/-- What `next_entry` reads from a record. -/
structure RecordFields where
  ino : Nat
  off : Int
  reclen : Nat
  dType : UInt8
  nameCopy : List UInt8
  copyLen : Nat

def recordFields (record : List UInt8) (recordLen : Nat) : Except Stop RecordFields := do
  let ino := parseU64 (← slice record 0 8)
  let off := parseI64 (← slice record 8 16)
  let reclen := parseU16 (← slice record 16 18)
  let dType ← byteAt record 18
  let rawNameBytes ← slice record linuxDirent64FixedSize recordLen
  let rawNameLen := rawNameBytes.findIdx (· == 0)
  let copyLen := min rawNameLen (direntNameCapacity - 1)
  let copied ← slice rawNameBytes 0 copyLen
  let nameCopy := copied ++ List.replicate (direntNameCapacity - copyLen) 0
  .ok { ino, off, reclen, dType, nameCopy, copyLen }

/-- `next_entry` behind the refill. -/
def entryAtCursor (stream : DirStream) :
    Except Stop (Except Int (Option Dirent) × DirStream) :=
  match checkedSub stream.filled stream.cursor with
  | none => .error .panicked
  | some available =>
    if available < linuxDirent64FixedSize then .ok (.error EIO, stream)
    else do
      let record ← slice stream.buffer stream.cursor stream.filled
      let recordLen := parseU16 (← slice record 16 18)
      if recordLen < linuxDirent64FixedSize ∨ recordLen > available then
        .ok (.error EIO, stream)
      else do
        let record ← slice stream.buffer stream.cursor (stream.cursor + recordLen)
        let fields ← recordFields record recordLen
        let name ← slice fields.nameCopy 0 fields.copyLen
        let stream := fillUserEntry stream fields.ino fields.off fields.reclen fields.dType name
        .ok (.ok (some stream.entry), { stream with cursor := stream.cursor + recordLen })

/-- `next_entry`; a refill takes the next result. -/
def nextEntry (stream : DirStream) (results : List Getdents64) :
    Except Stop (Except Int (Option Dirent) × DirStream × List Getdents64) :=
  if stream.cursor ≥ stream.filled then
    match results with
    | [] => .error .usedUp
    | result :: results =>
      match refill stream result with
      | (.error errno, stream) => .ok (.error errno, stream, results)
      | (.ok bytesRead, stream) =>
        if bytesRead = 0 then .ok (.ok none, stream, results)
        else (entryAtCursor stream).map fun found => (found.1, found.2, results)
  else (entryAtCursor stream).map fun found => (found.1, found.2, results)

/-! ## The entry points

A directory handle is the stream it points to, or `none` when it is null. -/

/-- What a call of `readdir` returns, and the `errno` it sets. -/
structure Reply where
  entry : Option Dirent
  errno : Option Int
deriving DecidableEq

/-- The stream that `opendir` makes. -/
def DirStream.opened (fd : Int) : DirStream where
  fd := fd
  cursor := 0
  filled := 0
  buffer := List.replicate direntBufferSize 0
  entry :=
    { dIno := 0
      dOff := 0
      dReclen := 0
      dType := 0
      dName := List.replicate direntNameCapacity 0 }

/-- `opendir`, with what `openat` returns to it: the handle, and the `errno` it sets. -/
def opendir (pathIsNull : Bool) (raw : Int) : Option DirStream × Option Int :=
  if pathIsNull then (none, some EFAULT)
  else if raw < 0 then (none, some (errnoFromRaw raw))
  else (some (.opened raw), none)

/-- How `readdir` passes on what `next_entry` found. -/
def replyOf : Except Int (Option Dirent) → Reply
  | .ok entry => ⟨entry, none⟩
  | .error errno => ⟨none, some errno⟩

def readdir (dir : Option DirStream) (results : List Getdents64) :
    Except Stop (Reply × Option DirStream × List Getdents64) :=
  match dir with
  | none => .ok (⟨none, some EINVAL⟩, none, results)
  | some stream =>
    (nextEntry stream results).map fun next => (replyOf next.1, some next.2.1, next.2.2)

/-- `rewinddir`, with what `lseek` returns to it: the `errno` it sets. -/
def rewinddir (dir : Option DirStream) (raw : Int) : Option Int × Option DirStream :=
  match dir with
  | none => (some EINVAL, none)
  | some stream =>
    if raw < 0 then (some (errnoFromRaw raw), some stream)
    else (none, some { stream with cursor := 0, filled := 0 })

/-- A number of calls of `readdir`. -/
def readdirs : Nat → Option DirStream → List Getdents64 →
    Except Stop (List Reply × Option DirStream × List Getdents64)
  | 0, dir, results => .ok ([], dir, results)
  | n + 1, dir, results =>
    (readdir dir results).bind fun first =>
      (readdirs n first.2.1 first.2.2).map fun others => (first.1 :: others.1, others.2)

end Rlibc.Directory
