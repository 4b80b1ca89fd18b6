import Rlibc.Directory.Records
import Rlibc.Foundations.Lts

/-!
# What `readdir` delivers

In every state of a history of `readdir` and `rewinddir` calls, repeated `readdir` calls answer with
the records of the unread bytes and of the buffers that the kernel hands out, in order.
-/

namespace Rlibc.Directory

open ChunkReader

/-- What the kernel hands to the reader of records. -/
def Getdents64.chunk : Getdents64 → Except Int (List UInt8)
  | .error raw _ => .error (errnoFromRaw raw)
  | .bytes data _ => .ok data

/-- How an answer of the reader of records reaches the caller. -/
def toReply : Answer Dirent Int → Reply
  | .record entry => ⟨some entry, none⟩
  | .finished => ⟨none, none⟩
  | .malformed => ⟨none, some EIO⟩
  | .failed errno => ⟨none, some errno⟩

/-- A call of `readdir` does what a read does. -/
inductive ReadsAs : Option (Answer Dirent Int × List UInt8 × List (Except Int (List UInt8))) →
    Except Stop (Reply × Option DirStream × List Getdents64) → Prop
  | usedUp : ReadsAs none (.error .usedUp)
  | answered {answer : Answer Dirent Int} {stream : DirStream} {pending : List Getdents64}
      (fits : Fits stream) :
      ReadsAs (some (answer, unread stream, pending.map Getdents64.chunk))
        (.ok (toReply answer, some stream, pending))

theorem entryAtCursor_readsAs {stream : DirStream} (h : Fits stream) (pending : List Getdents64) :
    ReadsAs (some (recordCutter.next (unread stream) (pending.map Getdents64.chunk)))
      (((entryAtCursor stream).map fun found => (found.1, found.2, pending)).map fun next =>
        (replyOf next.1, some next.2.1, next.2.2)) := by
  by_cases hmalformed : Malformed (unread stream)
  · have hcut : recordCutter.cut (unread stream) = none := cutRecord_eq_none.mpr hmalformed
    rw [Cutter.next_of_cut_none hcut, entryAtCursor_malformed h hmalformed]
    exact .answered h
  · obtain ⟨stream', hentry, hfits, hunread⟩ := entryAtCursor_whole h hmalformed
    have hcut : recordCutter.cut (unread stream) =
        some (recordEntry ((unread stream).take (recordLength (unread stream))), unread stream') := by
      rw [hunread]
      exact if_neg hmalformed
    rw [Cutter.next_of_cut hcut, hentry]
    exact .answered hfits

theorem readdir_readsAs {stream : DirStream} (h : Fits stream) (pending : List Getdents64) :
    ReadsAs (recordCutter.read (unread stream) (pending.map Getdents64.chunk))
      (readdir (some stream) pending) := by
  have hlength := h.unread_length
  unfold readdir nextEntry
  dsimp only
  by_cases hempty : stream.cursor ≥ stream.filled
  -- The buffer is used up: the next reply of `getdents64` decides.
  · have hunread : unread stream = [] := by
      apply List.length_eq_zero_iff.mp
      omega
    rw [if_pos hempty, hunread]
    cases pending with
    -- No byte came back, which is the end of the directory.
    | nil => exact .usedUp
    | cons result pending =>
      cases result with
      | error raw hraw =>
        have hfailed := @ReadsAs.answered (.failed (errnoFromRaw raw)) stream pending h
        rw [hunread] at hfailed
        exact hfailed
      | bytes data hdata =>
        have hrefill := h.refill data hdata
        cases data with
        | nil =>
          have hfinished := @ReadsAs.answered .finished _ pending hrefill.1
          rw [hrefill.2] at hfinished
          exact hfinished
        | cons byte data =>
          have hentry := entryAtCursor_readsAs hrefill.1 pending
          rw [hrefill.2] at hentry
          exact hentry
  · rw [if_neg hempty]
    -- The buffer still holds bytes, so the kernel is not asked.
    have hne : unread stream ≠ [] := by
      intro hnil
      rw [hnil] at hlength
      change 0 = _ at hlength
      omega
    cases hunread : unread stream with
    | nil => exact absurd hunread hne
    | cons byte rest =>
      have hentry := entryAtCursor_readsAs h pending
      rw [hunread] at hentry
      exact hentry

/-- So do repeated calls. -/
inductive RunsAs :
    Option (List (Answer Dirent Int) × List UInt8 × List (Except Int (List UInt8))) →
    Except Stop (List Reply × Option DirStream × List Getdents64) → Prop
  | usedUp : RunsAs none (.error .usedUp)
  | answered {answers : List (Answer Dirent Int)} {stream : DirStream} {pending : List Getdents64}
      (fits : Fits stream) :
      RunsAs (some (answers, unread stream, pending.map Getdents64.chunk))
        (.ok (answers.map toReply, some stream, pending))

theorem readdirs_runsAs (n : Nat) {stream : DirStream} (h : Fits stream)
    (pending : List Getdents64) :
    RunsAs (recordCutter.reads n (unread stream) (pending.map Getdents64.chunk))
      (readdirs n (some stream) pending) := by
  induction n generalizing stream pending with
  | zero => exact @RunsAs.answered [] stream pending h
  | succ n ih =>
    rw [Cutter.reads, readdirs]
    have hfirst := readdir_readsAs h pending
    generalize recordCutter.read (unread stream) (pending.map Getdents64.chunk) = result,
      readdir (some stream) pending = call at hfirst ⊢
    cases hfirst with
    | usedUp => exact .usedUp
    | @answered answer stream' pending' hfits =>
      rw [Option.bind_some]
      change RunsAs _ (Except.map _ (readdirs n (some stream') pending'))
      have hothers := ih hfits pending'
      dsimp only
      generalize recordCutter.reads n (unread stream') (pending'.map Getdents64.chunk) = results,
        readdirs n (some stream') pending' = calls at hothers ⊢
      cases hothers with
      | usedUp => exact .usedUp
      | @answered answers stream'' pending'' hfits' =>
        exact @RunsAs.answered (answer :: answers) stream'' pending'' hfits'

/-! ## One call -/

/-- The reply to a call that has these bytes before it. -/
def recordReply (bytes : List UInt8) : Reply :=
  if Malformed bytes then ⟨none, some EIO⟩
  else ⟨some (recordEntry (bytes.take (recordLength bytes))), none⟩

theorem toReply_next (bytes : List UInt8) (source : List (Except Int (List UInt8))) :
    toReply (recordCutter.next bytes source).1 = recordReply bytes := by
  unfold recordReply
  by_cases hmalformed : Malformed bytes
  · have hcut : recordCutter.cut bytes = none := cutRecord_eq_none.mpr hmalformed
    rw [if_pos hmalformed, Cutter.next_of_cut_none hcut]
    rfl
  · have hcut : recordCutter.cut bytes =
        some (recordEntry (bytes.take (recordLength bytes)), bytes.drop (recordLength bytes)) :=
      if_neg hmalformed
    rw [if_neg hmalformed, Cutter.next_of_cut hcut]
    rfl

/-- The reply to a call, if the kernel has a result for it. -/
def nextReply (stream : DirStream) (pending : List Getdents64) : Option Reply :=
  if unread stream ≠ [] then some (recordReply (unread stream))
  else
    match pending with
    | [] => none
    | .error raw _ :: _ => some ⟨none, some (errnoFromRaw raw)⟩
    | .bytes data _ :: _ => some (if data = [] then ⟨none, none⟩ else recordReply data)

theorem readdir_reply {stream : DirStream} (h : Fits stream) {pending : List Getdents64}
    {result : Reply × Option DirStream × List Getdents64}
    (hcall : readdir (some stream) pending = .ok result) :
    nextReply stream pending = some result.1 := by
  have hread := readdir_readsAs h pending
  rw [hcall] at hread
  have hreply : (recordCutter.read (unread stream) (pending.map Getdents64.chunk)).map
      (fun read => toReply read.1) = some result.1 := by
    generalize recordCutter.read (unread stream) (pending.map Getdents64.chunk) = read at hread ⊢
    cases hread
    rfl
  rw [← hreply]
  unfold nextReply
  cases hunread : unread stream with
  | cons byte rest =>
    rw [if_pos (List.cons_ne_nil byte rest), Cutter.read, Option.map_some, toReply_next]
  | nil =>
    rw [if_neg (not_not_intro rfl)]
    cases pending with
    | nil => rfl
    | cons handed pending =>
      cases handed with
      | error raw hraw => rfl
      | bytes data hdata =>
        cases data with
        | nil => rfl
        | cons byte data =>
          show some (if byte :: data = [] then _ else recordReply (byte :: data)) =
            some (toReply (recordCutter.next (byte :: data) _).1)
          rw [toReply_next, if_neg (List.cons_ne_nil byte data)]

theorem recordReply_ne_end (bytes : List UInt8) : recordReply bytes ≠ ⟨none, none⟩ := by
  unfold recordReply
  split
  · simp
  · simp

theorem recordReply_eq_eio {bytes : List UInt8} :
    recordReply bytes = ⟨none, some EIO⟩ ↔ Malformed bytes := by
  unfold recordReply
  split
  · rename_i h
    exact iff_of_true rfl h
  · rename_i h
    exact iff_of_false (by simp) h

/-! ## Histories -/

/-- A call on a directory handle; a call of `rewinddir` comes with what `lseek` returns. -/
inductive DirCall where
  | readdir
  | rewinddir (raw : Int)

/-- One call, as a step. -/
def dirStep (state : Option DirStream × List Getdents64) :
    DirCall → Option (Option DirStream × List Getdents64)
  | .readdir => (readdir state.1 state.2).toOption.map (·.2)
  | .rewinddir raw => some ((rewinddir state.1 raw).2, state.2)

theorem Fits.rewound {stream : DirStream} (h : Fits stream) :
    Fits { stream with cursor := 0, filled := 0 } where
  cursor := Nat.le_refl 0
  filled := Nat.zero_le _
  buffer := h.buffer

theorem opened_fits (fd : Int) : Fits (.opened fd) where
  cursor := Nat.le_refl 0
  filled := Nat.zero_le _
  buffer := List.length_replicate

/-- A call keeps the cursor in the filled part. -/
theorem dirStep_fits {stream : DirStream} (h : Fits stream) (pending : List Getdents64)
    (call : DirCall) {state : Option DirStream × List Getdents64}
    (hstep : dirStep (some stream, pending) call = some state) :
    ∃ stream', state.1 = some stream' ∧ Fits stream' := by
  cases call with
  | readdir =>
    have hread := readdir_readsAs h pending
    change ((readdir (some stream) pending).toOption.map (·.2)) = some state at hstep
    generalize recordCutter.read (unread stream) (pending.map Getdents64.chunk) = result,
      readdir (some stream) pending = reply at hread hstep
    cases hread with
    | usedUp => cases hstep
    | answered hfits =>
      cases hstep
      exact ⟨_, rfl, hfits⟩
  | rewinddir raw =>
    cases hstep
    unfold rewinddir
    dsimp only
    split
    · exact ⟨_, rfl, h⟩
    · exact ⟨_, rfl, h.rewound⟩

/-- What `readdir` and `rewinddir` do in a state of a history. -/
structure DirContract (stream : DirStream) (pending : List Getdents64) : Prop where
  /-- Repeated calls give the records of what is unread and of the buffers to come. -/
  replies : ∀ n, (readdirs n (some stream) pending).map (·.1) =
    if recordCutter.blocked (unread stream) (pending.map Getdents64.chunk) = true ∨
        n ≤ (recordCutter.answers (unread stream) (pending.map Getdents64.chunk)).length then
      .ok (((recordCutter.answers (unread stream) (pending.map Getdents64.chunk)).map toReply ++
        List.replicate n (Reply.mk none (some EIO))).take n)
    else .error .usedUp
  noPanic : readdir (some stream) pending ≠ .error .panicked
  /-- The end is reported when a refill yields nothing. -/
  finished : ∀ result, readdir (some stream) pending = .ok result →
    (result.1 = ⟨none, none⟩ ↔ unread stream = [] ∧ ∃ h more, pending = .bytes [] h :: more)
  /-- A malformed record is reported, unless it is the kernel that fails. -/
  malformed : ∀ result, readdir (some stream) pending = .ok result →
    (∀ raw h more, pending = .error raw h :: more → unread stream ≠ []) →
    (result.1 = ⟨none, some EIO⟩ ↔
      (unread stream ≠ [] ∧ Malformed (unread stream)) ∨
      (unread stream = [] ∧
        ∃ data h more, pending = .bytes data h :: more ∧ data ≠ [] ∧ Malformed data))
  /-- At a malformed record the cursor stays. -/
  stays : unread stream ≠ [] → Malformed (unread stream) → ∀ n,
    readdirs n (some stream) pending =
      .ok (List.replicate n ⟨none, some EIO⟩, some stream, pending)
  /-- An error of the kernel is passed on, and the next call asks again. -/
  failed : unread stream = [] → ∀ raw h more, pending = .error raw h :: more →
    readdir (some stream) pending = .ok (⟨none, some (errnoFromRaw raw)⟩, some stream, more)
  /-- Bytes that are not unread have no influence. -/
  unreadOnly : ∀ other, Fits other → unread other = unread stream → ∀ n,
    (readdirs n (some other) pending).map (·.1) = (readdirs n (some stream) pending).map (·.1)
  rewound : ∀ raw, 0 ≤ raw → ∃ stream', rewinddir (some stream) raw = (none, some stream') ∧
    unread stream' = []
  notRewound : ∀ raw, raw < 0 →
    rewinddir (some stream) raw = (some (errnoFromRaw raw), some stream)

theorem Fits.replies {stream : DirStream} (h : Fits stream) (pending : List Getdents64) (n : Nat) :
    (readdirs n (some stream) pending).map (·.1) =
    if recordCutter.blocked (unread stream) (pending.map Getdents64.chunk) = true ∨
        n ≤ (recordCutter.answers (unread stream) (pending.map Getdents64.chunk)).length then
      .ok (((recordCutter.answers (unread stream) (pending.map Getdents64.chunk)).map toReply ++
        List.replicate n (Reply.mk none (some EIO))).take n)
    else .error .usedUp := by
  have hruns := readdirs_runsAs n h pending
  have hreads := recordCutter.reads_eq n (unread stream) (pending.map Getdents64.chunk)
  generalize recordCutter.reads n (unread stream) (pending.map Getdents64.chunk) = results,
    readdirs n (some stream) pending = calls at hruns hreads ⊢
  by_cases hmay : recordCutter.blocked (unread stream) (pending.map Getdents64.chunk) = true ∨
      n ≤ (recordCutter.answers (unread stream) (pending.map Getdents64.chunk)).length
  · rw [if_pos hmay] at hreads ⊢
    cases hruns with
    | usedUp => cases hreads
    | answered =>
      have hanswers := Option.some.inj hreads
      dsimp only at hanswers
      rw [hanswers]
      show Except.ok (List.map toReply (List.take n _)) = _
      rw [List.map_take, List.map_append, List.map_replicate]
      rfl
  · rw [if_neg hmay] at hreads ⊢
    cases hruns with
    | usedUp => rfl
    | answered => cases hreads

theorem Fits.contract {stream : DirStream} (h : Fits stream) (pending : List Getdents64) :
    DirContract stream pending where
  replies := h.replies pending
  noPanic := by
    have hread := readdir_readsAs h pending
    generalize recordCutter.read (unread stream) (pending.map Getdents64.chunk) = result,
      readdir (some stream) pending = reply at hread ⊢
    cases hread with
    | usedUp => simp
    | answered => simp
  finished := by
    intro result hcall
    have hreply := readdir_reply h hcall
    unfold nextReply at hreply
    -- With unread bytes the answer is theirs; otherwise it is the kernel's next reply.
    -- The same two cases; a record that does not fit the unread bytes answers `EIO`.
    by_cases hunread : unread stream = []
    · rw [if_neg (not_not_intro hunread)] at hreply
      cases pending with
      | nil => cases hreply
      | cons handed pending =>
        cases handed with
        | error raw hraw =>
          rw [← Option.some.inj hreply]
          simp
        | bytes data hdata =>
          rw [← Option.some.inj hreply]
          by_cases hdone : data = []
          · rw [if_pos hdone]
            simp [hunread, hdone]
          · rw [if_neg hdone]
            simp [hdone, recordReply_ne_end]
    · rw [if_pos hunread] at hreply
      rw [← Option.some.inj hreply]
      simp [hunread, recordReply_ne_end]
  malformed := by
    intro result hcall hkernel
    have hreply := readdir_reply h hcall
    unfold nextReply at hreply
    by_cases hunread : unread stream = []
    · rw [if_neg (not_not_intro hunread)] at hreply
      cases pending with
      | nil => cases hreply
      | cons handed pending =>
        cases handed with
        | error raw hraw => exact absurd hunread (hkernel raw hraw pending rfl)
        | bytes data hdata =>
          rw [← Option.some.inj hreply]
          by_cases hdone : data = []
          · rw [if_pos hdone]
            simp [hunread, hdone]
          · rw [if_neg hdone, recordReply_eq_eio]
            simp [hunread, hdone, hdata]
    · rw [if_pos hunread] at hreply
      rw [← Option.some.inj hreply, recordReply_eq_eio]
      simp [hunread]
  stays := by
    intro hunread hmalformed n
    have hfull : ¬ stream.cursor ≥ stream.filled := by
      intro hempty
      apply hunread
      apply List.length_eq_zero_iff.mp
      rw [h.unread_length]
      omega
    have hone : readdir (some stream) pending = .ok (⟨none, some EIO⟩, some stream, pending) := by
      unfold readdir nextEntry
      dsimp only
      rw [if_neg hfull, entryAtCursor_malformed h hmalformed]
      rfl
    -- A malformed record is not skipped, so that every later call meets it again.
    induction n with
    | zero => rfl
    | succ n ih =>
      rw [readdirs, hone]
      change Except.map _ (readdirs n (some stream) pending) = _
      rw [ih]
      rfl
  failed := by
    intro hunread raw hraw more hpending
    have hlength := h.unread_length
    rw [hunread] at hlength
    change 0 = _ at hlength
    rw [hpending]
    unfold readdir nextEntry
    dsimp only
    rw [if_pos (by omega)]
    rfl
  unreadOnly := by
    intro other hother hsame n
    rw [hother.replies pending n, h.replies pending n, hsame]
  rewound := by
    intro raw hraw
    refine ⟨{ stream with cursor := 0, filled := 0 }, ?_, ?_⟩
    · unfold rewinddir
      dsimp only
      rw [if_neg (by omega)]
    · exact List.take_zero
  notRewound := by
    intro raw hraw
    unfold rewinddir
    dsimp only
    rw [if_pos hraw]

/-- The buffer of a stream that was opened holds what the stream says, whatever was called since. -/
theorem fits_of_run {fd : Int} {results pending : List Getdents64} {calls : List DirCall}
    {dir : Option DirStream}
    (hrun : Lts.run dirStep (some (.opened fd), results) calls = some (dir, pending)) :
    ∃ stream, dir = some stream ∧ Fits stream := by
  refine Lts.run_preserves (P := fun state : Option DirStream × List Getdents64 =>
    ∃ stream, state.1 = some stream ∧ Fits stream) ?_ ⟨_, rfl, opened_fits fd⟩ hrun
  intro state call state' hstate hstep
  obtain ⟨stream, hstream, hfits⟩ := hstate
  obtain ⟨dir, pending⟩ := state
  change dir = some stream at hstream
  rw [hstream] at hstep
  exact dirStep_fits hfits pending call hstep

/-- **Directory reading.**  In every state of a history of calls on a directory that was opened,
`readdir` and `rewinddir` keep their contract. -/
theorem readdir_contract (fd : Int) (results : List Getdents64) (calls : List DirCall)
    (dir : Option DirStream) (pending : List Getdents64)
    (hrun : Lts.run dirStep (some (.opened fd), results) calls = some (dir, pending)) :
    ∃ stream, dir = some stream ∧ DirContract stream pending := by
  obtain ⟨stream, hstream, hfits⟩ := fits_of_run hrun
  exact ⟨stream, hstream, hfits.contract pending⟩

/-- The record of a file `a` with inode 7. -/
def oneRecord : List UInt8 :=
  [7, 0, 0, 0, 0, 0, 0, 0, 24, 0, 0, 0, 0, 0, 0, 0, 24, 0, 8, 97, 0, 0, 0, 0]

def oneEntry : Dirent where
  dIno := 7
  dOff := 24
  dReclen := 24
  dType := 8
  dName := 97 :: List.replicate 255 0

/-- A directory with one entry. -/
theorem readdir_contract_oneEntry :
    (readdirs 2 (some (.opened 3)) [.bytes oneRecord (by decide), .bytes [] (by decide)]).map
      (·.1) = .ok [⟨some oneEntry, none⟩, ⟨none, none⟩] := by
  obtain ⟨stream, hstream, hcontract⟩ := readdir_contract 3
    [.bytes oneRecord (by decide), .bytes [] (by decide)] [] _ _ rfl
  cases hstream
  have hcut : recordCutter.cut oneRecord = some (oneEntry, []) := by decide +kernel
  have hanswers : recordCutter.answers (unread (.opened 3))
      (List.map Getdents64.chunk [.bytes oneRecord (by decide), .bytes [] (by decide)]) =
      [.record oneEntry, .finished] := by
    show recordCutter.chunkAnswers [] (recordCutter.chunkAnswers oneRecord [.finished]) = _
    rw [Cutter.chunkAnswers_nil, Cutter.chunkAnswers_of_cut hcut, Cutter.chunkAnswers_nil]
  rw [hcontract.replies 2, hanswers]
  exact if_pos (Or.inr (Nat.le_refl 2))

/-- `opendir` fails with the error of the call that failed, and a stream that it returns keeps the
contract from then on. -/
theorem opendir_spec (pathIsNull : Bool) (raw : Int) :
    (opendir pathIsNull raw = (none, some (if pathIsNull then EFAULT else errnoFromRaw raw)) ∧
      (pathIsNull = true ∨ raw < 0)) ∨
    ∃ opened, opendir pathIsNull raw = (some opened, none) ∧ opened.fd = raw ∧
      ∀ results calls dir pending,
        Lts.run dirStep (some opened, results) calls = some (dir, pending) →
          ∃ stream, dir = some stream ∧ DirContract stream pending := by
  unfold opendir
  cases pathIsNull with
  | true => exact Or.inl ⟨rfl, Or.inl rfl⟩
  | false =>
    by_cases hraw : raw < 0
    · exact Or.inl ⟨if_pos hraw, Or.inr hraw⟩
    · refine Or.inr ⟨.opened raw, if_neg hraw, rfl, fun results calls dir pending hrun => ?_⟩
      obtain ⟨stream, hstream, hfits⟩ := fits_of_run hrun
      exact ⟨stream, hstream, hfits.contract pending⟩

end Rlibc.Directory
