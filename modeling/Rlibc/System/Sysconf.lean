import Mathlib.Data.Nat.Count
import Rlibc.Foundations.ByteOrder
import Rlibc.Foundations.Calls
import Rlibc.System.CpuList

/-!
# `sysconf`

The host is asked anew at every call: for files that may be missing, for an affinity mask and for a
limit.  Only the page size is kept once it is found.
-/

namespace Rlibc.System

open Intervals Text ByteOrder

/-- What the host answers during a call: the files under `/sys` and `/proc`, `none` where one cannot
be read, the result of `sched_getaffinity` for a mask of the given length with the bytes of the mask,
and the result of `prlimit64` with the soft limit. -/
structure Host where
  possible : Option (List Char)
  present : Option (List Char)
  online : Option (List Char)
  procStat : Option (List Char)
  auxv : Option (List UInt8)
  getaffinity : Nat → Int × (Nat → UInt8)
  prlimit : Int × Nat

/-- `c_long::try_from(value).ok()`. -/
def cLongFromUsize (value : Nat) : Option Int := if value ≤ isizeMax then some value else none

def errnoFromRaw (raw : Int) : Int := (cIntTryFrom (-raw)).getD cIntMax

/-! ## Processors -/

/-- The body of the two parsers that follow. -/
def parseProcessorCount (contents : List Char) : Option Int :=
  ((parseCpuRangeList contents).filter (0 < ·)).bind cLongFromUsize

def parseOnlineProcessorCount (contents : List Char) : Option Int := parseProcessorCount contents

def parseConfiguredProcessorCount (contents : List Char) : Option Int :=
  parseProcessorCount contents

/-- `cpu` and a number begin the line of a processor; `cpu` alone that of all together. -/
def isCpuLine (line : List Char) : Bool :=
  match ['c', 'p', 'u'].isPrefixOf? line with
  | some rest => rest ≠ [] ∧ rest.all isAsciiDigit
  | none => false

def parseProcStatProcessorCount (contents : List Char) : Option Int :=
  cLongFromUsize (max ((lines contents).countP isCpuLine) 1)

/-- `u8::count_ones`. -/
def countOnes (byte : UInt8) : Nat := Nat.count (fun i => byte.toNat.testBit i = true) 8

/-- The bits that are set in the first `n` bytes. -/
def countMask (mask : Nat → UInt8) : Nat → Nat
  | 0 => 0
  | n + 1 => countMask mask n + countOnes (mask n)

def queryOnlineProcessorCount (host : Host) (maskLen : Nat) : Except Int Nat :=
  let raw := (host.getaffinity maskLen).1
  if raw < 0 then .error (errnoFromRaw raw)
  else .ok (max (countMask (host.getaffinity maskLen).2 (min raw.toNat maskLen)) 1)

def schedAffinityBytes : Nat := 128

def maxSchedAffinityBytes : Nat := 16 * 1024

/-- The loop over the lengths of the mask. -/
def retryAffinity (query : Nat → Except Int Nat) (maskLen : Nat) (hpos : 0 < maskLen) : Int :=
  match query maskLen with
  | .ok count => (cLongFromUsize (max count 1)).getD isizeMax
  | .error errno =>
    if errno = EINVAL then
      if hnext : maskLen * 2 ≤ usizeMax ∧ maskLen * 2 ≤ maxSchedAffinityBytes then
        retryAffinity query (maskLen * 2) (by omega)
      else 1
    else 1
termination_by maxSchedAffinityBytes - maskLen
decreasing_by omega

def onlineProcessorCountWithRetries (query : Nat → Except Int Nat) : Int :=
  retryAffinity query schedAffinityBytes (by decide)

def onlineProcessorCountWith (online procStat : Option (List Char)) (fallbackAffinity : Int) : Int :=
  ((online.bind parseOnlineProcessorCount).or (procStat.bind parseProcStatProcessorCount)).getD
    fallbackAffinity

def onlineProcessorCount (host : Host) : Int :=
  onlineProcessorCountWith host.online host.procStat
    (onlineProcessorCountWithRetries (queryOnlineProcessorCount host))

def configuredProcessorCountWith (possible present : Option (List Char)) (fallbackOnline : Int) :
    Int :=
  max (((possible.bind parseConfiguredProcessorCount).or
    (present.bind parseConfiguredProcessorCount)).getD fallbackOnline) 1

def configuredProcessorCount (host : Host) : Int :=
  configuredProcessorCountWith host.possible host.present (onlineProcessorCount host)

/-! ## Limits and the page size -/

/-- `RLIM_INFINITY`. -/
def rlimInfinity : Nat := usizeMax

def openMaxFallbackValue : Int := 1024

def openMaxFromSoftLimit (rlimCur : Nat) : Int :=
  if rlimCur = rlimInfinity then openMaxFallbackValue else (cLongFromUsize rlimCur).getD isizeMax

def openMaxValue (host : Host) : Int :=
  if host.prlimit.1 ≠ 0 then openMaxFallbackValue else openMaxFromSoftLimit host.prlimit.2

/-- `chunks_exact` of two words, each chunk as a key and a value. -/
def auxvEntries (bytes : List UInt8) : List (Nat × Nat) :=
  if bytes.length < 16 then []
  else
    (ofLeBytes (bytes.take 8), ofLeBytes ((bytes.drop 8).take 8)) :: auxvEntries (bytes.drop 16)
termination_by bytes.length
decreasing_by
  rw [List.length_drop]
  omega

/-- The loop over the entries. -/
def findPageSize : List (Nat × Nat) → Option Int
  | [] => none
  | (key, value) :: entries =>
    if key = 0 then none
    else if key = 6 then (cIntTryFrom value).bind fun size => if 0 < size then some size else none
    else findPageSize entries

def parsePageSizeFromAuxvBytes (bytes : List UInt8) : Option Int := findPageSize (auxvEntries bytes)

def detectPageSize (host : Host) : Int := (host.auxv.bind parsePageSizeFromAuxvBytes).getD 4096

/-- `OnceLock::get_or_init` on `PAGE_SIZE`. -/
def pageSize (cell : Option Int) (host : Host) : Int × Option Int :=
  let size := cell.getD (detectPageSize host)
  (size, some size)

/-! ## The entry points -/

def getpagesize (cell : Option Int) (host : Host) : Int × Option Int := pageSize cell host

/-- The return value and the `errno` that the call sets, and `PAGE_SIZE` after it. -/
def sysconf (cell : Option Int) (host : Host) (name : Int) : (Int × Option Int) × Option Int :=
  if name = 2 then ((100, none), cell)
  else if name = 4 then ((openMaxValue host, none), cell)
  else if name = 30 then (((pageSize cell host).1, none), (pageSize cell host).2)
  else if name = 83 then ((configuredProcessorCount host, none), cell)
  else if name = 84 then ((onlineProcessorCount host, none), cell)
  else ((-1, some EINVAL), cell)

inductive SystemCall where
  | getpagesize
  | sysconf (name : Int)

/-- A call, with what the host answers during it. -/
structure SystemRequest where
  host : Host
  call : SystemCall

def SystemRequest.perform (cell : Option Int) (request : SystemRequest) :
    (Int × Option Int) × Option Int :=
  match request.call with
  | .getpagesize => (((getpagesize cell request.host).1, none), (getpagesize cell request.host).2)
  | .sysconf name => sysconf cell request.host name

/-! ## What is counted -/

/-- The list names these processors. -/
def Names (text : List Char) (cpus : Finset Nat) : Prop :=
  ∃ ivs, CpuList text ivs ∧ Ascending ivs ∧ (∀ iv ∈ ivs, iv.last ≤ usizeMax) ∧ cpus = points ivs

/-- How many processors the list names, where it is one and a `long` holds their number. -/
def Counts (text : List Char) (count : Int) : Prop :=
  ∃ cpus, Names text cpus ∧ cpus.card ≤ isizeMax ∧ count = cpus.card

/-- A line of `/proc/stat` about one processor. -/
def CpuLine (line : List Char) : Prop := ∃ digits, IsNumeral digits ∧ line = ['c', 'p', 'u'] ++ digits

/-- The processors of the first `n` bytes of a mask. -/
def maskCpus (mask : Nat → UInt8) (n : Nat) : Finset Nat :=
  (Finset.range (8 * n)).filter fun cpu => (mask (cpu / 8)).toNat.testBit (cpu % 8) = true

theorem parseCpuRangeList_names {text : List Char} {n : Nat} :
    parseCpuRangeList text = some n ↔ ∃ cpus, Names text cpus ∧ n = cpus.card ∧ n ≤ usizeMax := by
  unfold parseCpuRangeList
  rw [parseCpuTokens_eq_some (Nat.zero_le usizeMax)]
  constructor
  · rintro ⟨ivs, htokens, hascending, -, hends, hn, hle⟩
    rw [forall₂_paddedToken_trim, ← cpuList_iff] at htokens
    refine ⟨points ivs, ⟨ivs, htokens, hascending, hends, rfl⟩, ?_, hle⟩
    rw [hascending.card_points]
    omega
  · rintro ⟨cpus, ⟨ivs, hlist, hascending, hends, rfl⟩, hn, hle⟩
    rw [cpuList_iff, ← forall₂_paddedToken_trim] at hlist
    rw [hascending.card_points] at hn
    refine ⟨ivs, hlist, hascending, ?_, hends, by omega, hle⟩
    intro h
    cases h

/-- A list names at least one processor. -/
theorem Names.card_pos {text : List Char} {cpus : Finset Nat} (h : Names text cpus) :
    0 < cpus.card := by
  obtain ⟨ivs, ⟨raws, hne, -, htokens⟩, hascending, -, rfl⟩ := h
  rw [hascending.card_points]
  cases htokens with
  | nil => exact absurd rfl hne
  | @cons raw iv raws ivs _ _ =>
    show 0 < iv.length + totalLength ivs
    unfold Intervals.Interval.length
    omega

theorem parseProcessorCount_eq_some {text : List Char} {count : Int} :
    parseProcessorCount text = some count ↔ Counts text count := by
  unfold parseProcessorCount Counts cLongFromUsize
  simp only [Option.bind_eq_some_iff, Option.filter_eq_some_iff, decide_eq_true_eq,
    parseCpuRangeList_names]
  constructor
  · rintro ⟨n, ⟨⟨cpus, hnames, hn, -⟩, -⟩, hcount⟩
    split_ifs at hcount with hle
    rw [hn] at hle hcount
    exact ⟨cpus, hnames, hle, (Option.some.inj hcount).symm⟩
  · rintro ⟨cpus, hnames, hle, rfl⟩
    have hwide : cpus.card ≤ usizeMax := by
      unfold isizeMax at hle
      unfold usizeMax
      omega
    exact ⟨cpus.card, ⟨⟨cpus, hnames, rfl, hwide⟩, hnames.card_pos⟩, if_pos hle⟩

theorem isCpuLine_iff {line : List Char} : isCpuLine line = true ↔ CpuLine line := by
  unfold isCpuLine CpuLine IsNumeral
  cases hpre : ['c', 'p', 'u'].isPrefixOf? line with
  | none =>
    constructor
    · intro h
      cases h
    · rintro ⟨digits, -, hline⟩
      rw [isPrefixOf?_eq_some.mpr hline] at hpre
      cases hpre
  | some rest =>
    have hline := isPrefixOf?_eq_some.mp hpre
    dsimp only
    rw [decide_eq_true_eq, List.all_eq_true]
    constructor
    · intro h
      exact ⟨rest, h, hline⟩
    · rintro ⟨digits, hdigits, hline'⟩
      rw [hline] at hline'
      rw [List.append_cancel_left hline']
      exact hdigits

theorem countMask_eq (mask : Nat → UInt8) (n : Nat) : countMask mask n = (maskCpus mask n).card := by
  unfold maskCpus
  rw [← Nat.count_eq_card_filter_range]
  induction n with
  | zero => rfl
  | succ n ih =>
    -- the last byte holds the processors from `8 * n` on
    rw [countMask, ih, Nat.mul_succ, Nat.count_add]
    congr 1
    unfold countOnes Nat.count
    apply List.countP_congr
    intro k hk
    rw [List.mem_range] at hk
    have hbyte : (8 * n + k) / 8 = n := by omega
    have hbit : (8 * n + k) % 8 = k := by omega
    simp only [decide_eq_true_eq, hbyte, hbit]

/-! ## The affinity mask -/

/-- The mask is too short for the kernel. -/
def Refused (host : Host) (maskLen : Nat) : Prop := (host.getaffinity maskLen).1 = -EINVAL

instance (host : Host) (maskLen : Nat) : Decidable (Refused host maskLen) :=
  inferInstanceAs (Decidable (_ = _))

/-- A length and those that come of doubling it. -/
def doublings (maskLen : Nat) : Nat → List Nat
  | 0 => [maskLen]
  | n + 1 => maskLen :: doublings (maskLen * 2) n

def lastDoubling (maskLen : Nat) : Nat → Nat
  | 0 => maskLen
  | n + 1 => lastDoubling (maskLen * 2) n

/-- How many processors the kernel's answer has. -/
def answerCount (host : Host) (maskLen : Nat) : Int :=
  if (host.getaffinity maskLen).1 < 0 then 1
  else max (maskCpus (host.getaffinity maskLen).2
    (min (host.getaffinity maskLen).1.toNat maskLen)).card 1

/-- The answer for the first mask that is long enough, and 1 if none is. -/
def affinityCount (host : Host) (maskLens : List Nat) : Int :=
  ((maskLens.find? fun maskLen => decide (¬ Refused host maskLen)).map (answerCount host)).getD 1

theorem le_lastDoubling (maskLen n : Nat) : maskLen ≤ lastDoubling maskLen n := by
  induction n generalizing maskLen with
  | zero => exact Nat.le_refl _
  | succ n ih =>
    have hmore := ih (maskLen * 2)
    show maskLen ≤ lastDoubling (maskLen * 2) n
    omega

theorem maskCpus_card_le (mask : Nat → UInt8) (n : Nat) : (maskCpus mask n).card ≤ 8 * n := by
  have hle := Finset.card_filter_le (Finset.range (8 * n))
    fun cpu => (mask (cpu / 8)).toNat.testBit (cpu % 8) = true
  rw [Finset.card_range] at hle
  exact hle

theorem query_refused {host : Host} {maskLen : Nat} (h : Refused host maskLen) :
    queryOnlineProcessorCount host maskLen = .error EINVAL := by
  unfold queryOnlineProcessorCount
  dsimp only
  rw [show (host.getaffinity maskLen).1 = -22 from h]
  rfl

theorem errnoFromRaw_ne {raw : Int} (h : raw ≠ -EINVAL) :
    errnoFromRaw raw ≠ EINVAL := by
  unfold errnoFromRaw cIntTryFrom cIntMax
  show _ ≠ (22 : Int)
  have hraw : raw ≠ -22 := h
  split_ifs
  · show -raw ≠ 22
    omega
  · decide

/-- An answer that is no refusal ends the loop. -/
theorem retryAffinity_answer {host : Host} {maskLen : Nat} (hpos : 0 < maskLen)
    (hlen : maskLen ≤ maxSchedAffinityBytes) (h : ¬ Refused host maskLen) :
    retryAffinity (queryOnlineProcessorCount host) maskLen hpos = answerCount host maskLen := by
  rw [retryAffinity]
  unfold queryOnlineProcessorCount answerCount
  dsimp only
  by_cases hneg : (host.getaffinity maskLen).1 < 0
  · rw [if_pos hneg, if_pos hneg]
    dsimp only
    rw [if_neg (errnoFromRaw_ne h)]
  · rw [if_neg hneg, if_neg hneg]
    dsimp only
    rw [countMask_eq]
    generalize hn : min (host.getaffinity maskLen).1.toNat maskLen = n
    have hcard := maskCpus_card_le (host.getaffinity maskLen).2 n
    have hsmall : max (max (maskCpus (host.getaffinity maskLen).2 n).card 1) 1 ≤ isizeMax := by
      unfold maxSchedAffinityBytes at hlen
      unfold isizeMax
      omega
    unfold cLongFromUsize
    rw [if_pos hsmall, Option.getD_some]
    omega

theorem affinityCount_cons (host : Host) (maskLen : Nat) (maskLens : List Nat) :
    affinityCount host (maskLen :: maskLens) =
      if Refused host maskLen then affinityCount host maskLens else answerCount host maskLen := by
  unfold affinityCount
  by_cases h : Refused host maskLen
  · rw [if_pos h, List.find?_cons_of_neg (by simpa using h)]
  · rw [if_neg h, List.find?_cons_of_pos (by simpa using h)]
    rfl

theorem retryAffinity_doublings (host : Host) (n : Nat) {maskLen : Nat} (hpos : 0 < maskLen)
    (hlast : lastDoubling maskLen n = maxSchedAffinityBytes) :
    retryAffinity (queryOnlineProcessorCount host) maskLen hpos =
      affinityCount host (doublings maskLen n) := by
  -- induction on the doublings that are left; a refusal leads to the next one
  induction n generalizing maskLen with
  | zero =>
    have hmax : maskLen = maxSchedAffinityBytes := hlast
    show _ = affinityCount host [maskLen]
    rw [affinityCount_cons]
    by_cases href : Refused host maskLen
    · have hfull : ¬ (maskLen * 2 ≤ usizeMax ∧ maskLen * 2 ≤ maxSchedAffinityBytes) := by omega
      rw [retryAffinity, query_refused href, if_pos href]
      dsimp only
      rw [if_pos rfl, dif_neg hfull]
      rfl
    · rw [if_neg href, retryAffinity_answer hpos (Nat.le_of_eq hmax) href]
  | succ n ih =>
    have hnext : maskLen * 2 ≤ maxSchedAffinityBytes :=
      (le_lastDoubling (maskLen * 2) n).trans (Nat.le_of_eq hlast)
    show _ = affinityCount host (maskLen :: doublings (maskLen * 2) n)
    rw [affinityCount_cons]
    by_cases href : Refused host maskLen
    · have hfits : maskLen * 2 ≤ usizeMax := hnext.trans (by decide)
      rw [retryAffinity, query_refused href, if_pos href]
      dsimp only
      rw [if_pos rfl, dif_pos ⟨hfits, hnext⟩]
      exact ih (by omega) hlast
    · rw [if_neg href, retryAffinity_answer hpos (by omega) href]

/-- **The retries.**  The first mask of 128 bytes, 256 bytes and so on up to 16384 bytes that the
kernel takes gives the count. -/
theorem onlineProcessorCountWithRetries_eq (host : Host) :
    onlineProcessorCountWithRetries (queryOnlineProcessorCount host) =
      affinityCount host (doublings schedAffinityBytes 7) :=
  retryAffinity_doublings host 7 (by decide) rfl

/-! ## The page size -/

/-- The entries in front of the one that ends the vector. -/
def liveEntries (entries : List (Nat × Nat)) : List (Nat × Nat) :=
  entries.takeWhile fun entry => decide (entry.1 ≠ 0)

theorem cIntTryFrom_pos (value : Nat) :
    ((cIntTryFrom value).bind fun size => if 0 < size then some size else none) =
      if 0 < value ∧ value ≤ cIntMax then some (value : Int) else none := by
  unfold cIntTryFrom cIntMax
  by_cases hfits : FitsCInt value
  · have hupper := hfits.2
    rw [if_pos hfits, Option.bind_some]
    by_cases hpos : 0 < value
    · rw [if_pos (by omega), if_pos ⟨hpos, by omega⟩]
    · rw [if_neg (by omega), if_neg (fun h => hpos h.1)]
  · rw [if_neg hfits, Option.bind_none, if_neg]
    rintro ⟨hpos, hle⟩
    exact hfits ⟨by omega, by omega⟩

theorem findPageSize_eq (entries : List (Nat × Nat)) :
    findPageSize entries =
      ((liveEntries entries).find? fun entry => decide (entry.1 = 6)).bind fun entry =>
        if 0 < entry.2 ∧ entry.2 ≤ cIntMax then some (entry.2 : Int) else none := by
  induction entries with
  | nil => rfl
  | cons entry entries ih =>
    obtain ⟨key, value⟩ := entry
    rw [findPageSize]
    unfold liveEntries at ih ⊢
    by_cases hnull : key = 0
    · rw [if_pos hnull, List.takeWhile_cons_of_neg (by simpa using hnull)]
      rfl
    · rw [if_neg hnull, List.takeWhile_cons_of_pos (by simpa using hnull)]
      by_cases hkey : key = 6
      · rw [if_pos hkey, List.find?_cons_of_pos (by simpa using hkey)]
        exact cIntTryFrom_pos value
      · rw [if_neg hkey, List.find?_cons_of_neg (by simpa using hkey)]
        exact ih

/-- The page size in the auxiliary vector, or the usual one. -/
def announcedPageSize (host : Host) : Int :=
  (host.auxv.bind fun bytes =>
    ((liveEntries (auxvEntries bytes)).find? fun entry => decide (entry.1 = 6)).bind fun entry =>
      if 0 < entry.2 ∧ entry.2 ≤ cIntMax then some (entry.2 : Int) else none).getD 4096

theorem detectPageSize_eq (host : Host) : detectPageSize host = announcedPageSize host := by
  unfold detectPageSize announcedPageSize parsePageSizeFromAuxvBytes
  simp only [findPageSize_eq]

/-! ## Which source counts -/

instance (line : List Char) : Decidable (CpuLine line) := decidable_of_iff _ isCpuLine_iff

/-- The processors of `/proc/stat`. -/
def statCount (text : List Char) : Nat := max ((lines text).countP fun line => decide (CpuLine line)) 1

/-- The file cannot be read, or counts nothing. -/
def NoCount (file : Option (List Char)) : Prop :=
  ∀ text, file = some text → ∀ count, ¬ Counts text count

/-- The number of processors that are online. -/
inductive Online (host : Host) : Int → Prop
  | online {text : List Char} {count : Int} (file : host.online = some text)
      (counts : Counts text count) : Online host count
  | procStat {text : List Char} (before : NoCount host.online) (file : host.procStat = some text)
      (fits : statCount text ≤ isizeMax) : Online host (statCount text)
  | affinity (before : NoCount host.online)
      (stat : ∀ text, host.procStat = some text → isizeMax < statCount text) :
      Online host (affinityCount host (doublings schedAffinityBytes 7))

/-- The number of processors that are configured. -/
inductive Configured (host : Host) : Int → Prop
  | possible {text : List Char} {count : Int} (file : host.possible = some text)
      (counts : Counts text count) : Configured host count
  | present {text : List Char} {count : Int} (before : NoCount host.possible)
      (file : host.present = some text) (counts : Counts text count) : Configured host count
  | online {count : Int} (before : NoCount host.possible) (between : NoCount host.present)
      (online : Online host count) : Configured host count

theorem Counts.pos {text : List Char} {count : Int} (h : Counts text count) : 1 ≤ count := by
  obtain ⟨cpus, hnames, -, rfl⟩ := h
  have hpos := hnames.card_pos
  omega

theorem answerCount_pos (host : Host) (maskLen : Nat) : 1 ≤ answerCount host maskLen := by
  unfold answerCount
  split_ifs <;> omega

theorem affinityCount_pos (host : Host) (maskLens : List Nat) : 1 ≤ affinityCount host maskLens := by
  induction maskLens with
  | nil => exact Int.le_refl 1
  | cons maskLen maskLens ih =>
    rw [affinityCount_cons]
    split_ifs
    · exact ih
    · exact answerCount_pos host maskLen

theorem Online.pos {host : Host} {count : Int} (h : Online host count) : 1 ≤ count := by
  cases h with
  | online file counts => exact counts.pos
  | @procStat text before file fits =>
    unfold statCount
    omega
  | affinity before stat => exact affinityCount_pos host _

theorem Configured.pos {host : Host} {count : Int} (h : Configured host count) : 1 ≤ count := by
  cases h with
  | possible file counts => exact counts.pos
  | present before file counts => exact counts.pos
  | online before between online => exact online.pos

theorem counts_of_bind {file : Option (List Char)} {count : Int}
    (h : file.bind parseProcessorCount = some count) :
    ∃ text, file = some text ∧ Counts text count := by
  obtain ⟨text, hfile, hcount⟩ := Option.bind_eq_some_iff.mp h
  exact ⟨text, hfile, parseProcessorCount_eq_some.mp hcount⟩

theorem noCount_of_bind {file : Option (List Char)} (h : file.bind parseProcessorCount = none) :
    NoCount file := by
  intro text hfile count hcounts
  rw [hfile, Option.bind_some, parseProcessorCount_eq_some.mpr hcounts] at h
  cases h

theorem parseProcStat_eq (text : List Char) :
    parseProcStatProcessorCount text = cLongFromUsize (statCount text) := by
  have hlines : isCpuLine = fun line => decide (CpuLine line) := by
    funext line
    rw [Bool.eq_iff_iff, decide_eq_true_eq]
    exact isCpuLine_iff
  unfold parseProcStatProcessorCount statCount
  rw [hlines]

theorem online_holds (host : Host) : Online host (onlineProcessorCount host) := by
  unfold onlineProcessorCount onlineProcessorCountWith
  rw [onlineProcessorCountWithRetries_eq]
  cases hlist : host.online.bind parseOnlineProcessorCount with
  | some count =>
    obtain ⟨text, hfile, hcounts⟩ := counts_of_bind hlist
    exact .online hfile hcounts
  | none =>
    have hbefore := noCount_of_bind hlist
    cases hstat : host.procStat.bind parseProcStatProcessorCount with
    | some count =>
      obtain ⟨text, hfile, hcount⟩ := Option.bind_eq_some_iff.mp hstat
      rw [parseProcStat_eq] at hcount
      unfold cLongFromUsize at hcount
      split_ifs at hcount with hfits
      cases hcount
      exact .procStat hbefore hfile hfits
    | none =>
      apply Online.affinity hbefore
      intro text hfile
      rw [hfile, Option.bind_some, parseProcStat_eq] at hstat
      unfold cLongFromUsize at hstat
      split_ifs at hstat with hfits
      omega

theorem configured_holds (host : Host) : Configured host (configuredProcessorCount host) := by
  have hone : ∀ {count : Int}, Configured host count → Configured host (max count 1) := by
    intro count h
    rw [max_eq_left h.pos]
    exact h
  unfold configuredProcessorCount configuredProcessorCountWith
  apply hone
  cases hpossible : host.possible.bind parseConfiguredProcessorCount with
  | some count =>
    obtain ⟨text, hfile, hcounts⟩ := counts_of_bind hpossible
    exact .possible hfile hcounts
  | none =>
    have hbefore := noCount_of_bind hpossible
    cases hpresent : host.present.bind parseConfiguredProcessorCount with
    | some count =>
      obtain ⟨text, hfile, hcounts⟩ := counts_of_bind hpresent
      exact .present hbefore hfile hcounts
    | none => exact .online hbefore (noCount_of_bind hpresent) (online_holds host)

/-! ## Runs -/

/-- What a call answers where the page size is `size`. -/
inductive Answers (size : Int) (host : Host) : SystemCall → Int × Option Int → Prop
  | getpagesize : Answers size host .getpagesize (size, none)
  | pageSize : Answers size host (.sysconf 30) (size, none)
  | clockTicks : Answers size host (.sysconf 2) (100, none)
  | openMax : Answers size host (.sysconf 4) (openMaxValue host, none)
  | configured {count : Int} (count_is : Configured host count) (pos : 1 ≤ count) :
      Answers size host (.sysconf 83) (count, none)
  | online {count : Int} (count_is : Online host count) (pos : 1 ≤ count) :
      Answers size host (.sysconf 84) (count, none)
  | unsupported {name : Int} (other : name ≠ 2 ∧ name ≠ 4 ∧ name ≠ 30 ∧ name ≠ 83 ∧ name ≠ 84) :
      Answers size host (.sysconf name) (-1, some EINVAL)

/-- The call asks for the page size. -/
def SystemRequest.asksPageSize (request : SystemRequest) : Bool :=
  match request.call with
  | .getpagesize => true
  | .sysconf name => name = 30

/-- The page size of a run: that in the cell, or what the host announces when it is first asked. -/
def runPageSize (cell : Option Int) (requests : List SystemRequest) : Int :=
  cell.getD (((requests.find? SystemRequest.asksPageSize).map fun request =>
    announcedPageSize request.host).getD 4096)

theorem perform_page (cell : Option Int) {request : SystemRequest}
    (h : request.asksPageSize = true) :
    (request.perform cell).2 = some (cell.getD (announcedPageSize request.host)) ∧
      Answers (cell.getD (announcedPageSize request.host)) request.host request.call
        (request.perform cell).1 := by
  obtain ⟨host, call⟩ := request
  rw [← detectPageSize_eq]
  cases call with
  | getpagesize => exact ⟨rfl, .getpagesize⟩
  | sysconf name =>
    have hname : name = 30 := of_decide_eq_true h
    subst hname
    exact ⟨rfl, .pageSize⟩

theorem perform_other (cell : Option Int) {request : SystemRequest}
    (h : ¬ request.asksPageSize = true) (size : Int) :
    (request.perform cell).2 = cell ∧
      Answers size request.host request.call (request.perform cell).1 := by
  obtain ⟨host, call⟩ := request
  cases call with
  | getpagesize => exact absurd rfl h
  | sysconf name =>
    have hpage : name ≠ 30 := fun hname => h (decide_eq_true hname)
    show (sysconf cell host name).2 = cell ∧
      Answers size host (.sysconf name) (sysconf cell host name).1
    unfold sysconf
    by_cases hticks : name = 2
    · subst hticks
      exact ⟨rfl, .clockTicks⟩
    by_cases hopen : name = 4
    · subst hopen
      exact ⟨rfl, .openMax⟩
    by_cases hconfigured : name = 83
    · subst hconfigured
      have hcount := configured_holds host
      exact ⟨rfl, .configured hcount hcount.pos⟩
    by_cases honline : name = 84
    · subst honline
      have hcount := online_holds host
      exact ⟨rfl, .online hcount hcount.pos⟩
    rw [if_neg hticks, if_neg hopen, if_neg hpage, if_neg hconfigured, if_neg honline]
    exact ⟨rfl, .unsupported ⟨hticks, hopen, hpage, hconfigured, honline⟩⟩

/-- The first call that asks for the page size settles it. -/
theorem runPageSize_asks (cell : Option Int) {request : SystemRequest}
    (h : request.asksPageSize = true) (requests : List SystemRequest) :
    runPageSize cell (request :: requests) = cell.getD (announcedPageSize request.host) := by
  unfold runPageSize
  rw [List.find?_cons_of_pos h]
  rfl

theorem runPageSize_other (cell : Option Int) {request : SystemRequest}
    (h : ¬ request.asksPageSize = true) (requests : List SystemRequest) :
    runPageSize cell (request :: requests) = runPageSize cell requests := by
  unfold runPageSize
  rw [List.find?_cons_of_neg h]

end Rlibc.System
