import ArstQuote.HeartbeatMessages
import ArstQuote.PoolSlots

/-!
# The configuration readers

`main` reads one key file three times.  A reader returns `false` only for a file
that does not load: it assigns the NULL of a missing string to a
`std::string`, takes the 0 of a missing number, and in both cases looks at the
error afterwards.
-/

namespace ArstQuote

open CString TextFormats

/-- A key file that has been loaded: what `g_key_file_get_string` returns for a
group and a key, and the number that `g_key_file_get_integer` returns without an
error. -/
structure KeyFile where
  getString : Bytes → Bytes → Option String
  getInteger : Bytes → Bytes → Option Int
  range : ∀ group key value, getInteger group key = some value →
    -2 ^ 31 ≤ value ∧ value < 2 ^ 31

/-- The bytes of a name in the source. -/
def literal (text : String) : Bytes :=
  ascii text.toList

/-- What `ReadConfigFile` fills in. -/
structure FileConfig where
  nServerCount : Int
  nServerSet : Int
  vServerInfo : List ServerInfo
  deriving DecidableEq

/-- What `ReadClientConfigFile` fills in. -/
structure ClientConfig where
  strListenPort : String
  strHeartBeatTime : String
  strEPIDNum : String
  deriving DecidableEq

/-- What `ReadQueueDAOConfigFile` fills in. -/
structure QueueDAOConfig where
  strService : String
  nNumberOfQueueDAO : Int
  kQueueDAOWriteStartKey : Int
  kQueueDAOWriteEndKey : Int
  kQueueDAOReadStartKey : Int
  kQueueDAOReadEndKey : Int
  kQueueDAOMonitorKey : Int
  deriving DecidableEq

/-- The key that `snprintf` leaves in an array of 16 characters. -/
def numberedKey (format : String) (number : Int) : Option Bytes := do
  let text ← printf format [.int number]
  let array ← snprintf (zeroed 16) text
  filledPart array

namespace KeyFile

variable (file : KeyFile)

/-- `g_key_file_get_integer`, which returns 0 with an error. -/
def integer (group key : Bytes) : Int :=
  (file.getInteger group key).getD 0

/-- The body of the loop in `ReadConfigFile`. -/
def readServer (strSection : Bytes) (i : Nat) : Option ServerInfo := do
  let keyIP ← numberedKey "IP%02d" (i + 1)
  let keyPort ← numberedKey "PORT%02d" (i + 1)
  let keyName ← numberedKey "NAME%02d" (i + 1)
  let strHost ← file.getString strSection keyIP
  let strPara ← file.getString strSection keyPort
  let strName ← file.getString strSection keyName
  return ⟨strHost, strPara, strName⟩

/-- The loop in `ReadConfigFile` from `i` on, with the passes left. -/
def readServers (strSection : Bytes) :
    Nat → Nat → List ServerInfo → Option (List ServerInfo)
  | 0, _, vServerInfo => some vServerInfo
  | left + 1, i, vServerInfo =>
      (file.readServer strSection i).bind fun serverInfo =>
        readServers strSection left (i + 1) (vServerInfo ++ [serverInfo])

/-- `ReadConfigFile`: what it returns and fills in, and `none` where it assigns
NULL to a `std::string`. -/
def readConfigFile (strSection : Bytes) : Option (Bool × FileConfig) := do
  let nServerCount := file.integer strSection (literal "ServerCount")
  let nServerSet := file.integer strSection (literal "ServerSet")
  let vServerInfo ← file.readServers strSection nServerCount.toNat 0 []
  return (true, ⟨nServerCount, nServerSet, vServerInfo⟩)

/-- `ReadClientConfigFile`. -/
def readClientConfigFile : Option (Bool × ClientConfig) := do
  let strEPIDNum ← file.getString (literal "SERVER") (literal "EpidNum")
  let strListenPort ← file.getString (literal "SERVER") (literal "ListenPort")
  let strHeartBeatTime ←
    file.getString (literal "SERVER") (literal "HeartBeatTime")
  return (true, ⟨strListenPort, strHeartBeatTime, strEPIDNum⟩)

/-- `ReadQueueDAOConfigFile`. -/
def readQueueDAOConfigFile : Option (Bool × QueueDAOConfig) := do
  let strService ← file.getString (literal "QUEUE") (literal "Service")
  return (true, {
    strService := strService
    nNumberOfQueueDAO :=
      file.integer (literal "QUEUE") (literal "NumberOfQueueDAO")
    kQueueDAOWriteStartKey :=
      file.integer (literal "QUEUE") (literal "QueueNodeWriteStartKey")
    kQueueDAOWriteEndKey :=
      file.integer (literal "QUEUE") (literal "QueueNodeWriteEndKey")
    kQueueDAOReadStartKey :=
      file.integer (literal "QUEUE") (literal "QueueNodeReadStartKey")
    kQueueDAOReadEndKey :=
      file.integer (literal "QUEUE") (literal "QueueNodeReadEndKey")
    kQueueDAOMonitorKey :=
      file.integer (literal "QUEUE") (literal "QueueNodeMonitorKey") })

/-- The entry number `nn`, under `IPnn`, `PORTnn` and `NAMEnn`. -/
def entry (strSection : Bytes) (nn : Nat) : Option ServerInfo := do
  let strHost ← file.getString strSection (literal "IP" ++ decimal 2 nn)
  let strPara ← file.getString strSection (literal "PORT" ++ decimal 2 nn)
  let strName ← file.getString strSection (literal "NAME" ++ decimal 2 nn)
  return ⟨strHost, strPara, strName⟩

def HasStrings (group : String) (keys : List String) : Prop :=
  ∀ key ∈ keys, (file.getString (literal group) (literal key)).isSome

def HasIntegers (group : String) (keys : List String) : Prop :=
  ∀ key ∈ keys, (file.getInteger (literal group) (literal key)).isSome

def ClientComplete : Prop :=
  file.HasStrings "SERVER" ["EpidNum", "ListenPort", "HeartBeatTime"]

def QueueDAOComplete : Prop :=
  file.HasStrings "QUEUE" ["Service"] ∧
    file.HasIntegers "QUEUE" ["NumberOfQueueDAO", "QueueNodeWriteStartKey",
      "QueueNodeWriteEndKey", "QueueNodeReadStartKey", "QueueNodeReadEndKey",
      "QueueNodeMonitorKey"]

/-- The two numbers are there, and all entries that the first one counts. -/
def ServersComplete (strSection : String) : Prop :=
  file.HasIntegers strSection ["ServerCount", "ServerSet"] ∧
    ∀ serverCount, file.getInteger (literal strSection)
        (literal "ServerCount") = some serverCount →
      ∀ nn : Nat, 1 ≤ nn → nn ≤ serverCount →
        (file.entry (literal strSection) nn).isSome

end KeyFile

/-- A reader returns, and it returns `true` exactly for a complete
configuration. -/
def ReadsComplete {Config : Type} (outcome : Option (Bool × Config))
    (complete : Prop) : Prop :=
  ∃ result config, outcome = some (result, config) ∧
    (result = true ↔ complete)

/-- `ReadConfigFile` moreover leaves the entries of the file, in order. -/
def ReadsServers (file : KeyFile) (strSection : String)
    (outcome : Option (Bool × FileConfig)) : Prop :=
  ∃ result config, outcome = some (result, config) ∧
    (result = true ↔ file.ServersComplete strSection) ∧
    (result = true → ∃ serverCount,
      file.getInteger (literal strSection) (literal "ServerCount") =
          some serverCount ∧
        config.vServerInfo.length = (max 0 serverCount).toNat ∧
        ∀ position (inside : position < config.vServerInfo.length),
          file.entry (literal strSection) (position + 1) =
            some config.vServerInfo[position])

/-- The keys fit in their arrays. -/
theorem numberedKey_eq {format letters : String} {number : Nat}
    (formatted : printf format [.int number] =
      some (literal letters ++ (decimal 2 number ++ [])))
    (plain : PlainText (literal letters))
    (short : (literal letters).length ≤ 4) (inRange : number < 2 ^ 31) :
    numberedKey format number = some (literal letters ++ decimal 2 number) := by
  have digits : (decimal 2 (number : Int)).length ≤ 10 :=
    decimal_length_le (by decide) (by decide) (by omega) (by omega)
  have clean : 0 ∉ literal letters ++ decimal 2 (number : Int) :=
    (plain.append (decimal_plain _ _)).zero_not_mem
  have length : (literal letters ++ decimal 2 (number : Int)).length ≤ 14 := by
    rw [List.length_append]
    omega
  rw [List.append_nil] at formatted
  have whole : (literal letters ++ decimal 2 (number : Int)).take
      ((zeroed 16).length - 1) = literal letters ++ decimal 2 (number : Int) :=
    List.take_of_length_le (by rw [zeroed_length]; omega)
  have fits : (literal letters ++ decimal 2 (number : Int)).length <
      (zeroed 16).length := by
    rw [zeroed_length]
    omega
  rw [numberedKey, formatted, Option.bind_eq_bind, Option.bind_some, snprintf,
    whole, sprintf_of_lt fits]
  exact filledPart_append clean _

namespace KeyFile

variable (file : KeyFile) (strSection : Bytes)

theorem readServer_eq_entry {i : Nat} (inRange : i + 1 < 2 ^ 31) :
    file.readServer strSection i = file.entry strSection (i + 1) := by
  have keyIP : numberedKey "IP%02d" ((i + 1 : Nat) : Int) =
      some (literal "IP" ++ decimal 2 (i + 1 : Nat)) :=
    numberedKey_eq rfl (by decide) (by decide) inRange
  have keyPort : numberedKey "PORT%02d" ((i + 1 : Nat) : Int) =
      some (literal "PORT" ++ decimal 2 (i + 1 : Nat)) :=
    numberedKey_eq rfl (by decide) (by decide) inRange
  have keyName : numberedKey "NAME%02d" ((i + 1 : Nat) : Int) =
      some (literal "NAME" ++ decimal 2 (i + 1 : Nat)) :=
    numberedKey_eq rfl (by decide) (by decide) inRange
  push_cast at keyIP keyPort keyName
  simp [readServer, entry, keyIP, keyPort, keyName]

/-- The loop collects one entry for each pass, and stops short at one that is
not there. -/
theorem readServers_eq_some_iff {left i : Nat}
    {vServerInfo result : List ServerInfo} (inRange : i + left < 2 ^ 31) :
    file.readServers strSection left i vServerInfo = some result ↔
      ∃ servers, result = vServerInfo ++ servers ∧ servers.length = left ∧
        ∀ position (inside : position < servers.length),
          file.entry strSection (i + position + 1) =
            some servers[position] := by
  induction left generalizing i vServerInfo with
  | zero =>
      constructor
      · intro ended
        obtain rfl := Option.some.inj ended
        exact ⟨[], by simp⟩
      · rintro ⟨servers, rfl, length, -⟩
        rw [List.length_eq_zero_iff.mp length, List.append_nil]
        rfl
  | succ left ih =>
      rw [readServers, file.readServer_eq_entry strSection (by omega),
        Option.bind_eq_some_iff]
      constructor
      · rintro ⟨serverInfo, first, rest⟩
        obtain ⟨servers, rfl, length, each⟩ := (ih (by omega)).mp rest
        refine ⟨serverInfo :: servers, by simp, by simp [length], ?_⟩
        intro position inside
        cases position with
        | zero => exact first
        | succ position =>
            have later := each position (Nat.lt_of_succ_lt_succ inside)
            rw [List.getElem_cons_succ, ← later]
            congr 1
            omega
      · rintro ⟨servers, rfl, length, each⟩
        cases servers with
        | nil => cases length
        | cons serverInfo servers =>
            refine ⟨serverInfo, each 0 (Nat.succ_pos _), ?_⟩
            rw [ih (by omega)]
            refine ⟨servers, by simp, Nat.succ.inj length, ?_⟩
            intro position inside
            have later := each (position + 1) (Nat.succ_lt_succ inside)
            rw [List.getElem_cons_succ] at later
            rw [← later]
            congr 1
            omega

theorem integer_toNat_lt (group key : Bytes) :
    (file.integer group key).toNat < 2 ^ 31 := by
  unfold integer
  cases found : file.getInteger group key with
  | none => simp
  | some value =>
      have range := file.range group key value found
      simp only [Option.getD_some]
      omega

/-- `ReadConfigFile` returns just when every entry that it counts is there, and
it then returns `true` with the entries in order. -/
theorem readConfigFile_eq_some_iff {result : Bool} {config : FileConfig} :
    file.readConfigFile strSection = some (result, config) ↔
      result = true ∧
        config.nServerCount =
          file.integer strSection (literal "ServerCount") ∧
        config.nServerSet = file.integer strSection (literal "ServerSet") ∧
        config.vServerInfo.length = config.nServerCount.toNat ∧
        ∀ position (inside : position < config.vServerInfo.length),
          file.entry strSection (position + 1) =
            some config.vServerInfo[position] := by
  have less := file.integer_toNat_lt strSection (literal "ServerCount")
  simp only [readConfigFile, Option.bind_eq_bind, Option.pure_def,
    Option.bind_eq_some_iff, Option.some.injEq, Prod.mk.injEq]
  constructor
  · rintro ⟨vServerInfo, collected, rfl, rfl⟩
    rw [readServers_eq_some_iff _ _ (by omega)] at collected
    obtain ⟨servers, same, length, each⟩ := collected
    obtain rfl : vServerInfo = servers := same
    refine ⟨rfl, rfl, rfl, length, ?_⟩
    intro position inside
    simpa using each position inside
  · rintro ⟨rfl, count, set, length, each⟩
    refine ⟨config.vServerInfo, ?_, rfl, ?_⟩
    · rw [readServers_eq_some_iff _ _ (by omega)]
      refine ⟨config.vServerInfo, rfl, by rw [length, count], ?_⟩
      intro position inside
      simpa using each position inside
    · rw [← count, ← set]

/-- What `ReadConfigFile` leaves is the configuration that the server pool
starts from. -/
theorem serverConfig_of_readConfigFile {result : Bool} {config : FileConfig}
    (returned : file.readConfigFile strSection = some (result, config))
    (absent : ServerInfo) :
    (⟨config.nServerCount.toNat, config.vServerInfo⟩ : ServerConfig) =
      ArstQuote.readConfigFile config.nServerCount
        fun nn => (file.entry strSection nn).getD absent := by
  obtain ⟨-, -, -, length, each⟩ :=
    (file.readConfigFile_eq_some_iff strSection).mp returned
  have entries : config.vServerInfo =
      (List.range config.nServerCount.toNat).map
        fun i => (file.entry strSection (i + 1)).getD absent := by
    apply List.ext_getElem
    · simp [length]
    · intro position inside _
      simp [each position inside]
  rw [ArstQuote.readConfigFile, ← entries]

end KeyFile

/-- A reader that returns nothing but `true` succeeds just for a complete
configuration if and only if it returns and the configuration is complete. -/
theorem readsComplete_iff {Config : Type} {outcome : Option (Bool × Config)}
    {complete : Prop} (always : ∀ result config,
      outcome = some (result, config) → result = true) :
    ReadsComplete outcome complete ↔ outcome.isSome ∧ complete := by
  constructor
  · rintro ⟨result, config, returned, succeeds⟩
    refine ⟨by simp [returned], succeeds.mp (always _ _ returned)⟩
  · rintro ⟨returns, held⟩
    obtain ⟨⟨result, config⟩, returned⟩ := Option.isSome_iff_exists.mp returns
    exact ⟨result, config, returned,
      iff_of_true (always _ _ returned) held⟩

namespace KeyFile

variable (file : KeyFile)

theorem readsComplete_client_iff :
    ReadsComplete file.readClientConfigFile file.ClientComplete ↔
      file.ClientComplete := by
  have always : ∀ result config,
      file.readClientConfigFile = some (result, config) → result = true := by
    intro result config returned
    simp only [readClientConfigFile, Option.bind_eq_bind, Option.pure_def,
      Option.bind_eq_some_iff, Option.some.injEq, Prod.mk.injEq] at returned
    obtain ⟨-, -, -, -, -, -, rfl, -⟩ := returned
    rfl
  rw [readsComplete_iff always]
  apply and_iff_right_of_imp
  intro complete
  obtain ⟨strEPIDNum, epid⟩ := Option.isSome_iff_exists.mp
    (complete "EpidNum" (by simp))
  obtain ⟨strListenPort, port⟩ := Option.isSome_iff_exists.mp
    (complete "ListenPort" (by simp))
  obtain ⟨strHeartBeatTime, time⟩ := Option.isSome_iff_exists.mp
    (complete "HeartBeatTime" (by simp))
  simp [readClientConfigFile, epid, port, time]

theorem readsComplete_queueDAO_iff :
    ReadsComplete file.readQueueDAOConfigFile file.QueueDAOComplete ↔
      file.QueueDAOComplete := by
  have always : ∀ result config,
      file.readQueueDAOConfigFile = some (result, config) →
        result = true := by
    intro result config returned
    simp only [readQueueDAOConfigFile, Option.bind_eq_bind, Option.pure_def,
      Option.bind_eq_some_iff, Option.some.injEq, Prod.mk.injEq] at returned
    obtain ⟨-, -, rfl, -⟩ := returned
    rfl
  rw [readsComplete_iff always]
  apply and_iff_right_of_imp
  intro complete
  obtain ⟨strService, service⟩ := Option.isSome_iff_exists.mp
    (complete.1 "Service" (by simp))
  simp [readQueueDAOConfigFile, service]

theorem readsServers_iff (strSection : String) :
    ReadsServers file strSection
        (file.readConfigFile (literal strSection)) ↔
      file.ServersComplete strSection := by
  constructor
  · rintro ⟨result, config, returned, succeeds, -⟩
    apply succeeds.mp
    exact ((file.readConfigFile_eq_some_iff _).mp returned).1
  · intro complete
    obtain ⟨serverCount, counted⟩ :=
      Option.isSome_iff_exists.mp (complete.1 "ServerCount" (by simp))
    have entries := complete.2 serverCount counted
    have count : file.integer (literal strSection) (literal "ServerCount") =
        serverCount := by
      simp [integer, counted]
    let vServerInfo := (List.range serverCount.toNat).map fun i =>
      (file.entry (literal strSection) (i + 1)).getD ⟨"", "", ""⟩
    have each : ∀ position (inside : position < vServerInfo.length),
        file.entry (literal strSection) (position + 1) =
          some vServerInfo[position] := by
      intro position inside
      have bound : position < serverCount.toNat := by
        simpa [vServerInfo] using inside
      obtain ⟨serverInfo, found⟩ := Option.isSome_iff_exists.mp
        (entries (position + 1) (by omega) (by omega))
      simp [vServerInfo, found]
    have returned : file.readConfigFile (literal strSection) =
        some (true, ⟨serverCount,
          file.integer (literal strSection) (literal "ServerSet"),
          vServerInfo⟩) := by
      rw [readConfigFile_eq_some_iff]
      exact ⟨rfl, count.symm, rfl, by simp [vServerInfo], each⟩
    refine ⟨true, _, returned, iff_of_true rfl complete, ?_⟩
    intro _
    have length : vServerInfo.length = (max 0 serverCount).toNat := by
      simp only [vServerInfo, List.length_map, List.length_range]
      omega
    exact ⟨serverCount, counted, length, each⟩

end KeyFile

/-- Each reader succeeds just for a complete configuration if and only if the
configuration it is given is complete. -/
theorem configReaders_complete_iff (file : KeyFile) (strSection : String) :
    (ReadsServers file strSection
        (file.readConfigFile (literal strSection)) ↔
      file.ServersComplete strSection) ∧
    (ReadsComplete file.readClientConfigFile file.ClientComplete ↔
      file.ClientComplete) ∧
    (ReadsComplete file.readQueueDAOConfigFile file.QueueDAOComplete ↔
      file.QueueDAOComplete) :=
  ⟨file.readsServers_iff strSection, file.readsComplete_client_iff,
    file.readsComplete_queueDAO_iff⟩

/-- A key file in which one key is missing from every group. -/
def KeyFile.without (missing : Bytes) : KeyFile where
  getString _ key := if key = missing then none else some "1"
  getInteger _ key := if key = missing then none else some 1
  range := by
    intro group key value found
    split at found
    · cases found
    · cases found
      decide

/-- A missing number is taken for 0, and a missing string ends the program. -/
theorem configReaders_incomplete :
    ¬ ReadsComplete
        (KeyFile.without (literal "QueueNodeMonitorKey")).readQueueDAOConfigFile
        (KeyFile.without (literal "QueueNodeMonitorKey")).QueueDAOComplete ∧
      ¬ ReadsComplete (KeyFile.without (literal "EpidNum")).readClientConfigFile
        (KeyFile.without (literal "EpidNum")).ClientComplete := by
  rw [KeyFile.readsComplete_queueDAO_iff, KeyFile.readsComplete_client_iff]
  constructor
  · intro complete
    have monitor := complete.2 "QueueNodeMonitorKey" (by simp)
    simp [KeyFile.without] at monitor
  · intro complete
    have epid := complete "EpidNum" (by simp)
    simp [KeyFile.without] at epid

end ArstQuote
