import Rlibc.Directory.Readdir
import Rlibc.Foundations.ChunkReader

/-!
# The records of a directory stream

The bytes of a stream that are still unread are what a reader of records has left.  A call of
`readdir` is one read: it does not panic, and it depends on nothing but these bytes.
-/

namespace Rlibc.Directory

open ByteOrder ChunkReader

/-- The length that a record says it has. -/
def recordLength (bytes : List UInt8) : Nat := parseU16 ((bytes.drop 16).take 2)

/-- The name up to its first NUL or the end of the record, cut to 255 bytes and padded. -/
def recordName (record : List UInt8) : List UInt8 :=
  let name := ((record.drop linuxDirent64FixedSize).takeWhile (· != 0)).take
    (direntNameCapacity - 1)
  name ++ List.replicate (direntNameCapacity - name.length) 0

/-- The entry that a record describes. -/
def recordEntry (record : List UInt8) : Dirent where
  dIno := parseU64 (record.take 8)
  dOff := parseI64 ((record.drop 8).take 8)
  dReclen := recordLength record
  dType := record.getD 18 0
  dName := recordName record

/-- The bytes do not begin with a whole record. -/
def Malformed (bytes : List UInt8) : Prop :=
  bytes.length < linuxDirent64FixedSize ∨ recordLength bytes < linuxDirent64FixedSize ∨
    bytes.length < recordLength bytes

instance (bytes : List UInt8) : Decidable (Malformed bytes) :=
  inferInstanceAs (Decidable (_ ∨ _))

/-- Takes the first record off the bytes. -/
def cutRecord (bytes : List UInt8) : Option (Dirent × List UInt8) :=
  if Malformed bytes then none
  else some (recordEntry (bytes.take (recordLength bytes)), bytes.drop (recordLength bytes))

theorem cutRecord_eq_none {bytes : List UInt8} : cutRecord bytes = none ↔ Malformed bytes := by
  unfold cutRecord
  split
  · rename_i h
    exact iff_of_true rfl h
  · rename_i h
    exact iff_of_false (by simp) h

/-- The reader of directory records. -/
def recordCutter : Cutter UInt8 Dirent where
  cut := cutRecord
  shorter := by
    intro bytes entry rest h
    unfold cutRecord at h
    split at h
    · cases h
    · rename_i hwhole
      cases h
      unfold Malformed linuxDirent64FixedSize at hwhole
      rw [List.length_drop]
      omega

/-! ## Names -/

theorem copyName_eq (front bytes : List UInt8) (k : Nat) (h : bytes.length ≤ k) :
    copyName (front ++ List.replicate k 0) front.length bytes =
      front ++ bytes ++ List.replicate (k - bytes.length) 0 := by
  induction bytes generalizing front k with
  | nil => rw [copyName, List.append_nil, List.length_nil, Nat.sub_zero]
  | cons byte bytes ih =>
    rw [List.length_cons] at h
    obtain ⟨k, rfl⟩ := Nat.exists_eq_succ_of_ne_zero (show k ≠ 0 by omega)
    have hset : (front ++ List.replicate (k + 1) 0).set front.length byte =
        (front ++ [byte]) ++ List.replicate k 0 := by
      rw [List.set_append_right _ _ (Nat.le_refl _), Nat.sub_self, List.replicate_succ,
        List.set_cons_zero, List.append_assoc, List.singleton_append]
    have hlength : front.length + 1 = (front ++ [byte]).length := by
      rw [List.length_append, List.length_singleton]
    rw [copyName, hset, hlength, ih (front ++ [byte]) k (by omega), List.length_cons,
      Nat.succ_sub_succ, List.append_assoc front, List.singleton_append]

/-- The entry's name, from the bytes that are copied into it. -/
theorem copyName_resetEntryName {bytes : List UInt8} (h : bytes.length ≤ direntNameCapacity) :
    copyName resetEntryName 0 bytes =
      bytes ++ List.replicate (direntNameCapacity - bytes.length) 0 :=
  copyName_eq [] bytes direntNameCapacity h

/-- The bytes that `next_entry` copies are the name. -/
theorem take_copyLen (bytes : List UInt8) (capacity : Nat) :
    bytes.take (min (bytes.findIdx (· == 0)) capacity) =
      (bytes.takeWhile (· != 0)).take capacity := by
  have hnot : (fun byte : UInt8 => !(byte != 0)) = (· == 0) := by
    funext byte
    exact Bool.not_not _
  rw [List.takeWhile_eq_take_findIdx_not, hnot, List.take_take, Nat.min_comm]

/-! ## Slices -/

theorem slice_eq {bytes : List UInt8} {start stop : Nat} (hle : start ≤ stop)
    (hstop : stop ≤ bytes.length) :
    slice bytes start stop = .ok ((bytes.drop start).take (stop - start)) :=
  if_pos ⟨hle, hstop⟩

theorem byteAt_eq {bytes : List UInt8} {index : Nat} (h : index < bytes.length) :
    byteAt bytes index = .ok (bytes.getD index 0) := by
  unfold byteAt
  rw [List.getD_eq_getElem?_getD, List.getElem?_eq_getElem h]
  rfl

theorem slice_bind {α : Type} {bytes : List UInt8} {start stop : Nat} (hle : start ≤ stop)
    (hstop : stop ≤ bytes.length) (f : List UInt8 → Except Stop α) :
    (slice bytes start stop >>= f) = f ((bytes.drop start).take (stop - start)) := by
  rw [slice_eq hle hstop]
  rfl

theorem byteAt_bind {α : Type} {bytes : List UInt8} {index : Nat} (h : index < bytes.length)
    (f : UInt8 → Except Stop α) : (byteAt bytes index >>= f) = f (bytes.getD index 0) := by
  rw [byteAt_eq h]
  rfl

/-- The fields of a record that is long enough. -/
theorem recordFields_eq {record : List UInt8} (h : linuxDirent64FixedSize ≤ record.length) :
    ∃ fields, recordFields record record.length = .ok fields ∧
      slice fields.nameCopy 0 fields.copyLen =
        .ok (((record.drop linuxDirent64FixedSize).takeWhile (· != 0)).take
          (direntNameCapacity - 1)) ∧
      fields.ino = (recordEntry record).dIno ∧ fields.off = (recordEntry record).dOff ∧
      fields.reclen = (recordEntry record).dReclen ∧
      fields.dType = (recordEntry record).dType := by
  have hfixed : 19 ≤ record.length := h
  have hname := take_copyLen (record.drop linuxDirent64FixedSize) (direntNameCapacity - 1)
  unfold recordFields
  rw [slice_bind (by decide) (by omega), slice_bind (by decide) (by omega),
    slice_bind (by decide) (by omega), byteAt_bind (by omega), slice_bind h (Nat.le_refl _),
    List.take_of_length_le (Nat.le_of_eq (List.length_drop))]
  generalize record.drop linuxDirent64FixedSize = raw at hname ⊢
  have hle : min (raw.findIdx (· == 0)) (direntNameCapacity - 1) ≤ raw.length :=
    Nat.le_trans (Nat.min_le_left _ _) List.findIdx_le_length
  dsimp only
  rw [slice_bind (Nat.zero_le _) hle, List.drop_zero, Nat.sub_zero, ← hname]
  refine ⟨_, rfl, ?_, rfl, rfl, rfl, rfl⟩
  dsimp only
  generalize min (raw.findIdx (· == 0)) (direntNameCapacity - 1) = copyLen at hle ⊢
  have htake : (raw.take copyLen).length = copyLen := List.length_take_of_le hle
  rw [List.drop_zero, Nat.sub_zero]
  have hwithin : copyLen ≤
      (raw.take copyLen ++ List.replicate (direntNameCapacity - copyLen) 0).length := by
    rw [List.length_append, htake]
    exact Nat.le_add_right _ _
  rw [slice_eq (Nat.zero_le _) hwithin, List.drop_zero, Nat.sub_zero, List.take_left' htake]

/-! ## Streams -/

/-- The cursor is in the filled part, and that is in the buffer. -/
structure Fits (stream : DirStream) : Prop where
  cursor : stream.cursor ≤ stream.filled
  filled : stream.filled ≤ stream.buffer.length
  buffer : stream.buffer.length = direntBufferSize

/-- The bytes that are still unread. -/
def unread (stream : DirStream) : List UInt8 :=
  (stream.buffer.drop stream.cursor).take (stream.filled - stream.cursor)

theorem Fits.unread_length {stream : DirStream} (h : Fits stream) :
    (unread stream).length = stream.filled - stream.cursor := by
  have hcursor := h.cursor
  have hfilled := h.filled
  unfold unread
  rw [List.length_take, List.length_drop]
  omega

theorem Fits.advance {stream : DirStream} (h : Fits stream) {n : Nat}
    (hn : n ≤ (unread stream).length) (entry : Dirent) :
    Fits { stream with entry := entry, cursor := stream.cursor + n } ∧
      unread { stream with entry := entry, cursor := stream.cursor + n } =
        (unread stream).drop n := by
  rw [h.unread_length] at hn
  have hcursor := h.cursor
  refine ⟨⟨?_, h.filled, h.buffer⟩, ?_⟩
  · show stream.cursor + n ≤ stream.filled
    omega
  · unfold unread
    dsimp only
    rw [List.drop_take, List.drop_drop, Nat.sub_sub]

/-- What a refill leaves unread. -/
theorem Fits.refill {stream : DirStream} (h : Fits stream) (data : List UInt8)
    (hdata : data.length ≤ direntBufferSize) :
    Fits (refill stream (.bytes data hdata)).2 ∧
      unread (refill stream (.bytes data hdata)).2 = data := by
  have hbuffer := h.buffer
  unfold Directory.refill unread
  dsimp only
  refine ⟨⟨Nat.zero_le _, ?_, ?_⟩, ?_⟩
  · show data.length ≤ (data ++ stream.buffer.drop data.length).length
    rw [List.length_append]
    exact Nat.le_add_right _ _
  · show (data ++ stream.buffer.drop data.length).length = direntBufferSize
    rw [List.length_append, List.length_drop]
    omega
  · rw [List.drop_zero, Nat.sub_zero, List.take_left]

/-! ## One call -/

theorem entryAtCursor_malformed {stream : DirStream} (h : Fits stream)
    (hmalformed : Malformed (unread stream)) :
    entryAtCursor stream = .ok (.error EIO, stream) := by
  have hcursor := h.cursor
  have hlength := h.unread_length
  unfold Malformed recordLength at hmalformed
  unfold entryAtCursor
  rw [checkedSub_eq_some.mpr ⟨rfl, hcursor⟩]
  dsimp only
  rw [hlength] at hmalformed
  by_cases hshort : stream.filled - stream.cursor < linuxDirent64FixedSize
  · rw [if_pos hshort]
  · have hfixed : ¬ stream.filled - stream.cursor < 19 := hshort
    rw [if_neg hshort, slice_bind hcursor h.filled]
    change (slice (unread stream) 16 18 >>= _) = _
    rw [slice_bind (by decide) (by omega)]
    change (if parseU16 ((unread stream).drop 16 |>.take 2) < _ ∨ _ then _ else _) = _
    rw [if_pos (hmalformed.resolve_left hshort)]

theorem entryAtCursor_whole {stream : DirStream} (h : Fits stream)
    (hwhole : ¬ Malformed (unread stream)) :
    ∃ stream', entryAtCursor stream =
        .ok (.ok (some (recordEntry ((unread stream).take (recordLength (unread stream))))),
          stream') ∧
      Fits stream' ∧ unread stream' = (unread stream).drop (recordLength (unread stream)) := by
  have hcursor := h.cursor
  have hfilled := h.filled
  have hlength := h.unread_length
  have hle : recordLength (unread stream) ≤ (unread stream).length := by
    unfold Malformed at hwhole
    omega
  have hfixed : 19 ≤ recordLength (unread stream) := by
    unfold Malformed linuxDirent64FixedSize at hwhole
    omega
  have hshort : ¬ stream.filled - stream.cursor < linuxDirent64FixedSize := by
    unfold linuxDirent64FixedSize
    omega
  have hlimits : ¬ (recordLength (unread stream) < linuxDirent64FixedSize ∨
      recordLength (unread stream) > stream.filled - stream.cursor) := by
    unfold linuxDirent64FixedSize
    omega
  -- The record is a slice of the bytes that are unread.
  have hrecord : (stream.buffer.drop stream.cursor).take
      (stream.cursor + recordLength (unread stream) - stream.cursor) =
      (unread stream).take (recordLength (unread stream)) := by
    generalize recordLength (unread stream) = n at hle ⊢
    rw [hlength] at hle
    unfold unread
    rw [List.take_take, Nat.add_sub_cancel_left, Nat.min_eq_left hle]
  have hrecordLength : ((unread stream).take (recordLength (unread stream))).length =
      recordLength (unread stream) := List.length_take_of_le hle
  have hadvance := h.advance hle
    (recordEntry ((unread stream).take (recordLength (unread stream))))
  have hfields := recordFields_eq (show linuxDirent64FixedSize ≤
    ((unread stream).take (recordLength (unread stream))).length by rw [hrecordLength]; exact hfixed)
  rw [hrecordLength] at hfields
  obtain ⟨fields, hread, hname, hino, hoff, hreclen, htype⟩ := hfields
  refine ⟨_, ?_, hadvance⟩
  unfold entryAtCursor
  rw [checkedSub_eq_some.mpr ⟨rfl, hcursor⟩]
  dsimp only
  rw [if_neg hshort, slice_bind hcursor h.filled]
  change (slice (unread stream) 16 18 >>= _) = _
  rw [slice_bind (by decide) (by omega),
    show parseU16 (((unread stream).drop 16).take (18 - 16)) = recordLength (unread stream) from rfl,
    if_neg hlimits, slice_bind (by omega) (by omega), hrecord]
  generalize (unread stream).take (recordLength (unread stream)) = record at *
  rw [hread]
  change (slice fields.nameCopy 0 fields.copyLen >>= _) = _
  rw [hname]
  have hcapacity : (((record.drop linuxDirent64FixedSize).takeWhile (· != 0)).take
      (direntNameCapacity - 1)).length ≤ direntNameCapacity := by
    rw [List.length_take]
    exact Nat.le_trans (Nat.min_le_left _ _) (Nat.sub_le _ _)
  have hentry : (fillUserEntry stream fields.ino fields.off fields.reclen fields.dType
      (((record.drop linuxDirent64FixedSize).takeWhile (· != 0)).take
        (direntNameCapacity - 1))).entry = recordEntry record := by
    unfold fillUserEntry
    dsimp only
    rw [copyName_resetEntryName hcapacity, hino, hoff, hreclen, htype]
    rfl
  change Except.ok (Except.ok (some (fillUserEntry stream _ _ _ _ _).entry), _) = _
  rw [hentry]
  rfl

end Rlibc.Directory
