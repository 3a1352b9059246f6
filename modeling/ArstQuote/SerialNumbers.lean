import ArstQuote.TextFormats
import ArstQuote.TickNumber
import Mathlib.Logic.Function.Basic
import Mathlib.Order.Interval.Set.Basic

/-!
# Where the serial numbers start

`set_sharedmemory.sh` computes the first serial number of a day from the host
and the date, and has `ARSTSetTickNumber` write it into a shared memory segment.
The number always has the 13 digits that the tool asks for, and the hundred
thousand numbers from it on belong to no other month and day of a host and to
no host with another base.  The year is not in the number, so that the same day
of two years has the same numbers, and the host is whatever `$HOSTNAME` says.
-/

namespace ArstQuote

open TextFormats

section Segments

/-- A System V segment with the `long` at its start and the number of its
attachments. -/
structure Segment where
  nSize : Nat
  serial : Int
  nattch : Nat
  deriving DecidableEq

/-- The segments by their keys.  A segment is known by its key alone, since
none of these programs removes one. -/
abbrev Segments := Int → Option Segment

def ipcPrivate : Int := 0

/-- Whether the system has what the two calls ask for, other than a segment of
the right size. -/
structure SegmentCalls where
  shmget : Bool
  shmat : Bool
  deriving DecidableEq

/-- `shmget` with `IPC_CREAT`: a new segment is zeroed, and an old one has to be
large enough. -/
def shmget (segments : Segments) (key : Int) (nSize : Nat) (allows : Bool) :
    Option Segments :=
  if allows then
    match if key = ipcPrivate then none else segments key with
    | some segment => if nSize ≤ segment.nSize then some segments else none
    | none => some (Function.update segments key (some ⟨nSize, 0, 0⟩))
  else none

/-- A change of one segment. -/
def onSegment (segments : Segments) (shmid : Int)
    (change : Segment → Segment) : Segments :=
  Function.update segments shmid ((segments shmid).map change)

/-- An `ARSTSharedMemory`, with the segment that `m_ptr` points to. -/
structure SharedMemory where
  m_shmid : Int
  m_ptr : Option Int

namespace SharedMemory

/-- `Attach`; `none` when it throws. -/
def attach (memory : SharedMemory) (segments : Segments) (allows : Bool) :
    Option (SharedMemory × Segments) :=
  match memory.m_ptr with
  | some _ => some (memory, segments)
  | none =>
      if allows then
        some ({ memory with m_ptr := some memory.m_shmid },
          onSegment segments memory.m_shmid fun segment =>
            { segment with nattch := segment.nattch + 1 })
      else none

/-- `Detach`, which is all that the destructor does. -/
def detach (memory : SharedMemory) (segments : Segments) :
    SharedMemory × Segments :=
  match memory.m_ptr with
  | some shmid =>
      ({ memory with m_ptr := none },
        onSegment segments shmid fun segment =>
          { segment with nattch := segment.nattch - 1 })
  | none => (memory, segments)

/-- The constructor, and what is left of it when it throws. -/
def create (segments : Segments) (key : Int) (nSize : Nat)
    (calls : SegmentCalls) : Except Segments (SharedMemory × Segments) :=
  match shmget segments key nSize calls.shmget with
  | none => .error segments
  | some segments =>
      match attach ⟨key, none⟩ segments calls.shmat with
      | none => .error segments
      | some created => .ok created

end SharedMemory

end Segments

section Tool

/-- `std::atoi`. -/
def atoi (text : Bytes) : Int :=
  let magnitude : Int := decimalValue (stolDigits text)
  if (splitSign (text.dropWhile isSpace)).1 then -magnitude else magnitude

/-- `sizeof(long)`. -/
def sizeofLong : Nat := 8

/-- The `long` that `Get` points to. -/
def Segments.serialAt (segments : Segments) (shmid : Int) : Int :=
  ((segments shmid).map Segment.serial).getD 0

/-- `main` of `ARSTSetTickNumber` with its shared memory: the exit code, and
`none` when an exception ends the program.  The object is detached on every
way out. -/
def setTickNumberMain (segments : Segments) (argv : List Bytes)
    (calls : SegmentCalls) : Option Int × Segments :=
  match argv with
  | [_, key, _] =>
      match SharedMemory.create segments (atoi key) sizeofLong calls with
      | .error segments => (none, segments)
      | .ok (memory, segments) =>
          match memory.attach segments calls.shmat with
          | none => (none, (memory.detach segments).2)
          | some (memory, segments) =>
              let (code, serial) :=
                setTickNumber argv (segments.serialAt memory.m_shmid)
              let segments := onSegment segments memory.m_shmid
                fun segment => { segment with serial := serial }
              let (memory, segments) := memory.detach segments
              (some code, (memory.detach segments).2)
  | _ => (some 1, segments)

end Tool

section Script

/-- `SHIFT_BIT`. -/
def shiftBit : Nat := 100000

/-- The month and the day of a date, which is all that the script takes from
`date`. -/
structure Date where
  month : Nat
  day : Nat
  calendar : (1 ≤ month ∧ month ≤ 12) ∧ 1 ≤ day ∧ day ≤ 31
  deriving DecidableEq

/-- `date +"%-m%d"`. -/
def Date.dateCode (date : Date) : Bytes :=
  decimal 0 date.month ++ decimal 2 date.day

/-- The value of an octal constant without its leading 0. -/
def octalValue (digits : Bytes) : Nat :=
  digits.foldl (fun value digit => 8 * value + (digit.toNat - 48)) 0

/-- A variable in an arithmetic expansion of the shell: digits are a decimal
constant, or an octal one when they begin with 0. -/
def shellConstant (text : Bytes) : Option Nat :=
  match text with
  | 48 :: octal =>
      if octal.all fun digit => 48 ≤ digit && digit ≤ 55 then
        some (octalValue octal)
      else none
  | _ =>
      if text ≠ [] ∧ AllDigits text then some (decimalValue text) else none

/-- The number that the hosts add their dates to. -/
def hostBase (hostname : String) : Nat :=
  match hostname with
  | "server-debug" | "tm0-hq" => 1020000000000
  | "tm1-hq" => 1030000000000
  | "tm2-hq" => 1040000000000
  | "tm0-ir" => 8000000000000
  | "tm1-ir" => 8010000000000
  | "tm2-ir" => 8020000000000
  | "tm1-hk" => 8030000000000
  | "tm2-hk" => 8050000000000
  | _ => 9990000000000

/-- `SERIALKEY`. -/
def serialKey (service market : String) : Option Nat :=
  match service, market with
  | "Trade", "BTC" => some 11
  | "Trade", "TSE" => some 21
  | "Quote", "BTC" => some 51
  | "Quote", "TSE" => some 61
  | _, _ => none

/-- `NUM`; `none` when the shell cannot read `DateCode`. -/
def firstSerial (hostname : String) (date : Date) : Option Nat :=
  (shellConstant date.dateCode).map fun dateCode =>
    hostBase hostname + dateCode * shiftBit

/-- An invocation of the script with what its commands find: the value of
`$HOSTNAME`, whether `cd` succeeds, the date, and the calls of the tool. -/
structure Invocation where
  service : String
  market : String
  hostname : String
  date : Date
  scriptPath : Bool
  calls : SegmentCalls

/-- `set_sharedmemory.sh`: its exit code and the segments afterwards.  The last
command is an `echo`, whatever the tool returned. -/
def setSharedMemory (segments : Segments) (run : Invocation) :
    Int × Segments :=
  if run.service = "Trade" ∨ run.service = "Quote" then
    if run.market = "BTC" ∨ run.market = "TSE" then
      if run.scriptPath then
        match firstSerial run.hostname run.date with
        | none => (1, segments)
        | some num =>
            let serialkey :=
              (serialKey run.service run.market).elim [] fun key =>
                decimal 0 key
            let tool := setTickNumberMain segments
              [ascii "../bin/ARSTSetShareNumber".toList, serialkey,
                decimal 0 num] run.calls
            (0, tool.2)
      else (1, segments)
    else (1, segments)
  else (1, segments)

namespace Invocation

/-- The script gets as far as the tool. -/
def Accepted (run : Invocation) : Prop :=
  (run.service = "Trade" ∨ run.service = "Quote") ∧
    (run.market = "BTC" ∨ run.market = "TSE") ∧ run.scriptPath = true
  deriving Decidable

/-- The key of the segment. -/
def key (run : Invocation) : Int :=
  (serialKey run.service run.market).getD 0

/-- The number of a host, a month and a day. -/
def num (run : Invocation) : Nat :=
  hostBase run.hostname +
    (100 * run.date.month + run.date.day) * shiftBit

/-- The hundred thousand numbers from it on. -/
def block (run : Invocation) : Set Nat :=
  Set.Ico run.num (run.num + shiftBit)

/-- The system has a segment that the tool can use. -/
def Possible (run : Invocation) (segments : Segments) : Prop :=
  run.calls = ⟨true, true⟩ ∧
    ∀ segment, segments run.key = some segment → sizeofLong ≤ segment.nSize

/-- What the script is for: the segment of the service and the market gets the
number, and nothing else changes.  Where the tool fails, the number in the
segment stays as it was, or is 0 in a new segment. -/
structure Sets (run : Invocation) (before : Segments)
    (outcome : Int × Segments) : Prop where
  refused : ¬ run.Accepted → outcome = (1, before)
  code : run.Accepted → outcome.1 = 0
  others : ∀ key, key ≠ run.key → outcome.2 key = before key
  set : run.Accepted → run.Possible before → outcome.2 run.key =
    some { (before run.key).getD ⟨sizeofLong, 0, 0⟩ with serial := run.num }
  unset : run.Accepted → ¬ run.Possible before →
    outcome.2 run.key = before run.key ∨
      before run.key = none ∧ outcome.2 run.key = some ⟨sizeofLong, 0, 0⟩

end Invocation

end Script

section Digits

variable {characters : List Char}

/-- A digit is its own byte. -/
theorem toNat_digit {character : Char} (digit : character.isDigit) :
    character.toNat.toUInt8.toNat = character.toNat := by
  have bounds := Char.isDigit_iff_toNat.mp digit
  have most : character.toNat ≤ 57 := bounds.2
  rw [Nat.toUInt8_eq, UInt8.toNat_ofNat']
  omega

theorem allDigits_ascii
    (digits : ∀ character ∈ characters, character.isDigit) :
    AllDigits (ascii characters) := by
  intro byte member
  obtain ⟨character, inside, rfl⟩ := List.mem_map.mp member
  have bounds := Char.isDigit_iff_toNat.mp (digits character inside)
  rw [isDigit_iff, toNat_digit (digits character inside)]
  exact bounds

/-- The tool reads the digits that the shell prints. -/
theorem decimalValue_ascii
    (digits : ∀ character ∈ characters, character.isDigit) :
    decimalValue (ascii characters) = Nat.ofDigitChars 10 characters 0 := by
  rw [decimalValue, ascii, List.foldl_map, Nat.ofDigitChars_eq_foldl]
  apply List.foldl_ext
  intro value character member
  rw [toNat_digit (digits character member)]
  rfl

theorem decimal_zero (value : Nat) :
    decimal 0 value = ascii (Nat.toDigits 10 value) := by
  simp [decimal, sign]

theorem digits_of_toDigits (value : Nat) :
    ∀ character ∈ Nat.toDigits 10 value, character.isDigit :=
  fun _ member => Nat.isDigit_of_mem_toDigits (by decide) (by decide) member

theorem allDigits_decimal (value : Nat) : AllDigits (decimal 0 value) := by
  rw [decimal_zero]
  exact allDigits_ascii (digits_of_toDigits value)

theorem decimalValue_decimal (value : Nat) :
    decimalValue (decimal 0 value) = value := by
  rw [decimal_zero, decimalValue_ascii (digits_of_toDigits value),
    Nat.ofDigitChars_ten_toDigits]

end Digits

section Numbers

/-- No date is taken for an octal number. -/
theorem shellConstant_dateCode (date : Date) :
    shellConstant date.dateCode = some (100 * date.month + date.day) := by
  have all : ∀ month < 13, ∀ day < 32, 1 ≤ month →
      shellConstant (decimal 0 (month : Nat) ++ decimal 2 (day : Nat)) =
        some (100 * month + day) := by
    decide +kernel
  obtain ⟨⟨first, last⟩, -, longest⟩ := date.calendar
  exact all date.month (by omega) date.day (by omega) first

theorem firstSerial_eq (run : Invocation) :
    firstSerial run.hostname run.date = some run.num := by
  rw [firstSerial, shellConstant_dateCode]
  rfl

/-- Every base has 13 digits and leaves room for a year below the next one. -/
theorem hostBase_bounds (hostname : String) :
    102 * 10 ^ 10 ≤ hostBase hostname ∧ hostBase hostname ≤ 999 * 10 ^ 10 ∧
      10 ^ 10 ∣ hostBase hostname := by
  unfold hostBase
  split <;> decide

namespace Invocation

variable (run other : Invocation)

theorem num_bounds : 10 ^ 12 ≤ run.num ∧ run.num + shiftBit < 10 ^ 13 := by
  have base := hostBase_bounds run.hostname
  have calendar := run.date.calendar
  unfold num shiftBit
  omega

/-- The tool accepts the texts of the number and of those after it. -/
theorem block_text {number : Nat} (member : number ∈ run.block) :
    (decimal 0 number).length = serialNumKey := by
  obtain ⟨least, most⟩ := run.num_bounds
  obtain ⟨atLeast, below⟩ := member
  have enough : (10 : Int) ^ 12 ≤ (number : Nat) := by
    exact_mod_cast le_trans least atLeast
  have less : (number : Int) < 10 ^ (12 + 1) := by
    exact_mod_cast lt_trans below most
  exact decimal_zero_length enough less

theorem num_mem_block : run.num ∈ run.block :=
  ⟨le_refl _, Nat.lt_add_of_pos_right (by decide)⟩

theorem block_disjoint (overlap : (run.block ∩ other.block).Nonempty) :
    hostBase run.hostname = hostBase other.hostname ∧
      run.date.month = other.date.month ∧ run.date.day = other.date.day := by
  obtain ⟨number, ⟨least, less⟩, leastToo, lessToo⟩ := overlap
  obtain ⟨-, -, base, baseEq⟩ := hostBase_bounds run.hostname
  obtain ⟨-, -, baseToo, baseEqToo⟩ := hostBase_bounds other.hostname
  have calendar := run.date.calendar
  have calendarToo := other.date.calendar
  unfold num at least less leastToo lessToo
  rw [baseEq] at least less
  rw [baseEqToo] at leastToo lessToo
  unfold shiftBit at *
  rw [baseEq, baseEqToo]
  omega

end Invocation

end Numbers

section Runs

variable {segments : Segments} {key : Int}

theorem onSegment_twice (segments : Segments) (key : Int)
    (first second : Segment → Segment) :
    onSegment (onSegment segments key first) key second =
      onSegment segments key (second ∘ first) := by
  simp [onSegment, Option.map_map]

@[simp]
theorem onSegment_self (segments : Segments) (key : Int)
    (change : Segment → Segment) :
    onSegment segments key change key = (segments key).map change :=
  Function.update_self _ _ _

theorem onSegment_other {other : Int} (different : other ≠ key)
    (change : Segment → Segment) :
    onSegment segments key change other = segments other :=
  Function.update_of_ne different _ _

/-- A number of 13 digits is stored as it is. -/
theorem setTickNumber_num (run : Invocation) (program key : Bytes)
    (pSerial : Int) :
    setTickNumber [program, key, decimal 0 run.num] pSerial =
      (0, (run.num : Int)) := by
  have length := run.block_text run.num_mem_block
  have stored := stol_of_allDigits (allDigits_decimal run.num) length
  rw [decimalValue_decimal] at stored
  simp [setTickNumber, length, stored]

/-- The tool with a number of 13 digits: it leaves the segments as `shmget`
leaves them, or writes the number into the segment. -/
theorem setTickNumberMain_num (segments : Segments) (run : Invocation)
    (program key : Bytes) (calls : SegmentCalls) :
    (setTickNumberMain segments [program, key, decimal 0 run.num] calls).2 =
      match shmget segments (atoi key) sizeofLong calls.shmget with
      | none => segments
      | some obtained =>
          if calls.shmat then
            onSegment obtained (atoi key) fun segment =>
              { segment with serial := run.num }
          else obtained := by
  unfold setTickNumberMain SharedMemory.create
  cases obtained : shmget segments (atoi key) sizeofLong calls.shmget with
  | none => simp [obtained]
  | some after =>
      cases allowed : calls.shmat with
      | false => simp [obtained, SharedMemory.attach]
      | true =>
          simp [obtained, SharedMemory.attach, SharedMemory.detach,
            setTickNumber_num, onSegment_twice, Function.comp_def]

/-- What `shmget` leaves: nothing else changes, and a segment that is large
enough, or a new one, is there. -/
theorem shmget_eq_some {obtained : Segments} {nSize : Nat} {allows : Bool}
    (shared : key ≠ ipcPrivate)
    (found : shmget segments key nSize allows = some obtained) :
    allows = true ∧
      (∀ segment, segments key = some segment → nSize ≤ segment.nSize) ∧
      (∀ other, other ≠ key → obtained other = segments other) ∧
      obtained key = some ((segments key).getD ⟨nSize, 0, 0⟩) := by
  simp only [shmget, if_neg shared, Option.ite_none_right_eq_some] at found
  obtain ⟨allowed, found⟩ := found
  refine ⟨allowed, ?_⟩
  cases before : segments key with
  | none =>
      simp only [before, Option.some.injEq] at found
      subst found
      refine ⟨by simp, ?_, by simp⟩
      intro other different
      exact Function.update_of_ne different _ _
  | some segment =>
      simp only [before, Option.ite_none_right_eq_some,
        Option.some.injEq] at found
      obtain ⟨large, rfl⟩ := found
      refine ⟨?_, fun _ _ => rfl, by simp [before]⟩
      rintro other ⟨⟩
      exact large

theorem exists_shmget {nSize : Nat} (shared : key ≠ ipcPrivate)
    (large : ∀ segment, segments key = some segment →
      nSize ≤ segment.nSize) :
    ∃ obtained, shmget segments key nSize true = some obtained := by
  cases before : segments key with
  | none => simp [shmget, shared, before]
  | some segment => simp [shmget, shared, before, large segment before]

/-- Every service and market has a key that the tool reads back, and it is not
the private one. -/
theorem Invocation.Accepted.readsKey {run : Invocation} (accepted : run.Accepted) :
    atoi ((serialKey run.service run.market).elim [] fun key =>
      decimal 0 key) = run.key ∧ run.key ≠ ipcPrivate := by
  obtain ⟨service, market, -⟩ := accepted
  unfold Invocation.key
  rcases service with service | service <;>
    rcases market with market | market <;>
    rw [service, market] <;> decide +kernel

/-- The segments after the tool was called by the script. -/
def Invocation.toolSegments (run : Invocation) (segments : Segments) :
    Segments :=
  match shmget segments run.key sizeofLong run.calls.shmget with
  | none => segments
  | some obtained =>
      if run.calls.shmat then
        onSegment obtained run.key fun segment =>
          { segment with serial := run.num }
      else obtained

theorem setSharedMemory_of_accepted {run : Invocation}
    (accepted : run.Accepted) (segments : Segments) :
    setSharedMemory segments run = (0, run.toolSegments segments) := by
  have readsKey := accepted.readsKey.1
  obtain ⟨service, market, scriptPath⟩ := accepted
  rw [setSharedMemory, if_pos service, if_pos market, if_pos scriptPath,
    firstSerial_eq]
  simp only [setTickNumberMain_num, readsKey]
  rfl

theorem setSharedMemory_of_refused {run : Invocation}
    (refused : ¬ run.Accepted) (segments : Segments) :
    setSharedMemory segments run = (1, segments) := by
  unfold setSharedMemory
  split
  case isFalse => rfl
  case isTrue service =>
    split
    case isFalse => rfl
    case isTrue market =>
      split
      case isFalse => rfl
      case isTrue scriptPath =>
        exact absurd ⟨service, market, scriptPath⟩ refused

namespace Invocation

variable {run : Invocation}

theorem toolSegments_other (shared : run.key ≠ ipcPrivate)
    {other : Int} (different : other ≠ run.key) :
    run.toolSegments segments other = segments other := by
  unfold toolSegments
  cases found : shmget segments run.key sizeofLong run.calls.shmget with
  | none => rfl
  | some obtained =>
      obtain ⟨-, -, others, -⟩ := shmget_eq_some shared found
      cases run.calls.shmat with
      | false => exact others other different
      | true => exact (onSegment_other different _).trans (others other different)

theorem toolSegments_possible (shared : run.key ≠ ipcPrivate)
    (possible : run.Possible segments) :
    run.toolSegments segments run.key =
      some { (segments run.key).getD ⟨sizeofLong, 0, 0⟩ with
        serial := run.num } := by
  obtain ⟨calls, large⟩ := possible
  obtain ⟨obtained, found⟩ := exists_shmget shared large
  obtain ⟨-, -, -, here⟩ := shmget_eq_some shared found
  simp [toolSegments, calls, found, here]

/-- Without a segment that it can use, the tool writes nothing. -/
theorem toolSegments_impossible (shared : run.key ≠ ipcPrivate)
    (impossible : ¬ run.Possible segments) :
    run.toolSegments segments run.key = segments run.key ∨
      segments run.key = none ∧
        run.toolSegments segments run.key = some ⟨sizeofLong, 0, 0⟩ := by
  unfold toolSegments
  cases found : shmget segments run.key sizeofLong run.calls.shmget with
  | none => exact Or.inl rfl
  | some obtained =>
      obtain ⟨obtains, large, -, here⟩ := shmget_eq_some shared found
      have unattached : run.calls.shmat = false := by
        by_contra attached
        rw [Bool.not_eq_false] at attached
        refine impossible ⟨?_, large⟩
        cases callsEq : run.calls
        simp_all
      simp only [unattached, Bool.false_eq_true, if_false, here]
      cases before : segments run.key with
      | none => exact Or.inr ⟨rfl, rfl⟩
      | some segment => exact Or.inl rfl

end Invocation

/-- The script sets the number of its host, month and day, whatever the system
has; all of the hundred thousand numbers from it on have the digits that the
tool asks for; and neither two hosts with different bases nor two different days
of the year share one of them. -/
theorem serialNumbers_set (segments : Segments) (run : Invocation) :
    run.Sets segments (setSharedMemory segments run) ∧
      (∀ number ∈ run.block, (decimal 0 number).length = serialNumKey) ∧
      ∀ other : Invocation, (run.block ∩ other.block).Nonempty →
        hostBase run.hostname = hostBase other.hostname ∧
          run.date.month = other.date.month ∧
          run.date.day = other.date.day := by
  refine ⟨?_, fun _ => run.block_text, run.block_disjoint⟩
  by_cases accepted : run.Accepted
  · have shared := accepted.readsKey.2
    rw [setSharedMemory_of_accepted accepted]
    constructor
    · exact absurd accepted
    · exact fun _ => rfl
    · exact fun _ => Invocation.toolSegments_other shared
    · exact fun _ => Invocation.toolSegments_possible shared
    · exact fun _ => Invocation.toolSegments_impossible shared
  · rw [setSharedMemory_of_refused accepted]
    constructor
    · exact fun _ => rfl
    · exact fun claimed => absurd claimed accepted
    · exact fun _ _ => rfl
    · exact fun claimed => absurd claimed accepted
    · exact fun claimed => absurd claimed accepted

end Runs

end ArstQuote
