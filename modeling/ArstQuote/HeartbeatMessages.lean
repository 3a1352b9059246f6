import ArstQuote.CString
import ArstQuote.TextFormats

/-!
# The heartbeat messages

`ARSTClient::OnHeartbeatRequest` formats the message for a client, and
`ARSTServers::OnHeartbeatRequest` two messages for the monitor, into arrays of
128 bytes.  Two of the three formats are not told the size of the array.
-/

namespace ArstQuote

open CString TextFormats

namespace CString

/-- `c_str()`, as the C string functions read it. -/
def cStr (text : Bytes) : Bytes :=
  text.takeWhile (· ≠ 0)

/-- `sprintf(array, ..)` of a formatted text, and `none` when it writes past
the end of the array. -/
def sprintf (array text : Bytes) : Option Bytes :=
  memcpy array 0 (text ++ [0])

/-- `snprintf(array, sizeof(array), ..)` of a formatted text. -/
def snprintf (array text : Bytes) : Option Bytes :=
  sprintf array (text.take (array.length - 1))

/-- What a function that is given `array` and `strlen(array)` gets. -/
def filledPart (array : Bytes) : Option Bytes :=
  (strlen array).map fun length => array.take length

end CString

/-- A `struct tm` from `localtime`, in a year of four digits. -/
structure CalendarTime where
  tm_year : Int
  tm_mon : Int
  tm_mday : Int
  tm_hour : Int
  tm_min : Int
  tm_sec : Int
  year : 1000 ≤ tm_year + 1900 ∧ tm_year + 1900 ≤ 9999
  month : 0 ≤ tm_mon ∧ tm_mon ≤ 11
  day : 1 ≤ tm_mday ∧ tm_mday ≤ 31
  hour : 0 ≤ tm_hour ∧ tm_hour ≤ 23
  minute : 0 ≤ tm_min ∧ tm_min ≤ 59
  second : 0 ≤ tm_sec ∧ tm_sec ≤ 60

/-- A host name from `gethostname`, of up to 64 characters.  The letters, digits,
hyphens and dots of host names stand for themselves in a JSON string, and no
more is asked of them. -/
structure HostName where
  name : Bytes
  plain : PlainText name
  short : name.length ≤ 64

/-- The counters in `g_MNTRMSG`. -/
structure MonitorMessage where
  num_of_thread_Current : Int
  num_of_thread_Max : Int
  process_vm_mb : Rat

/-- The date and the time as the arguments of a format. -/
def CalendarTime.arguments (tm : CalendarTime) : List Argument :=
  [.int (tm.tm_year + 1900), .int (tm.tm_mon + 1), .int tm.tm_mday,
    .int tm.tm_hour, .int tm.tm_min, .int tm.tm_sec]

section Texts

variable (tm : CalendarTime) (m_strEPID : Bytes) (hostname : HostName)
  (g_MNTRMSG : MonitorMessage)

/-- The whole text for a client. -/
def clientHeartbeatText : Option Bytes :=
  printf "03_ServerDate=%d%02d%02d,ServerTime=%02d%02d%02d00,EPID=%s,\r\n"
    (tm.arguments ++ [.string (cStr m_strEPID)])

/-- The whole first text for the monitor. -/
def monitorHeartbeatText : Option Bytes :=
  printf "\x7b\"Type\":\"Heartbeat\",\"Component\":\"Quote\",\"Hostname\":\"%s\",\"ServerDate\":\"%d%02d%02d\",\"ServerTime\":\"%02d%02d%02d00\"\x7d"
    (.string hostname.name :: tm.arguments)

/-- The whole second text for the monitor. -/
def monitorSystemText : Option Bytes :=
  printf "\x7b\"Type\":\"System\",\"Component\":\"Quote\",\"Hostname\":\"%s\",\"CurrentThread\":\"%d\",\"MaxThread\":\"%d\",\"MemoryUsage\":\"%.0f\"\x7d"
    [.string hostname.name, .int g_MNTRMSG.num_of_thread_Current,
      .int g_MNTRMSG.num_of_thread_Max, .double g_MNTRMSG.process_vm_mb]

/-- `ARSTClient::OnHeartbeatRequest`: the message handed to `SendAll`, and
`none` when it writes past the end of its array. -/
def clientHeartbeatRequest : Option Bytes := do
  let text ← clientHeartbeatText tm m_strEPID
  let caHeartbeatRequestBuf ← sprintf (zeroed 128) text
  filledPart caHeartbeatRequestBuf

/-- `ARSTServers::OnHeartbeatRequest`: the two messages handed to `SendData`,
and `none` when it writes past the end of its array. -/
def serversHeartbeatRequest : Option (Bytes × Bytes) := do
  let heartbeat ← monitorHeartbeatText tm hostname
  let caHeartbeatRequestBuf ← sprintf (zeroed 128) heartbeat
  let first ← filledPart caHeartbeatRequestBuf
  let system ← monitorSystemText hostname g_MNTRMSG
  let caHeartbeatRequestBuf ← snprintf caHeartbeatRequestBuf system
  let second ← filledPart caHeartbeatRequestBuf
  return (first, second)

/-- The client is sent the whole text. -/
def ClientHeartbeatWhole : Prop :=
  ∃ text, clientHeartbeatText tm m_strEPID = some text ∧
    clientHeartbeatRequest tm m_strEPID = some text

/-- The monitor is sent both whole texts, which are JSON objects. -/
def MonitorHeartbeatsWhole : Prop :=
  ∃ heartbeat system, monitorHeartbeatText tm hostname = some heartbeat ∧
    monitorSystemText hostname g_MNTRMSG = some system ∧
    serversHeartbeatRequest tm hostname g_MNTRMSG = some (heartbeat, system) ∧
    IsJsonObject heartbeat ∧ IsJsonObject system

end Texts

namespace CString

theorem sprintf_of_lt {array text : Bytes}
    (fits : text.length < array.length) :
    sprintf array text =
      some (text ++ 0 :: array.drop (text.length + 1)) := by
  rw [sprintf, memcpy, if_pos (by simp; omega)]
  simp

theorem sprintf_of_le {array text : Bytes}
    (long : array.length ≤ text.length) : sprintf array text = none := by
  rw [sprintf, memcpy, if_neg (by simp; omega)]

theorem filledPart_append {text : Bytes} (clean : 0 ∉ text)
    (after : Bytes) : filledPart (text ++ 0 :: after) = some text := by
  have read : stringAt (text ++ 0 :: after) 0 = some text :=
    stringAt_append clean [] after
  simp [filledPart, strlen, read]

theorem zero_not_mem_cStr (text : Bytes) : 0 ∉ cStr text := by
  intro member
  simpa using List.mem_takeWhile_imp member

end CString

section Texts

variable (tm : CalendarTime) (m_strEPID : Bytes) (hostname : HostName)
  (g_MNTRMSG : MonitorMessage)

/-- The date, in eight digits. -/
def CalendarTime.date : Bytes :=
  decimal 0 (tm.tm_year + 1900) ++
    (decimal 2 (tm.tm_mon + 1) ++ decimal 2 tm.tm_mday)

/-- The time, in six digits. -/
def CalendarTime.time : Bytes :=
  decimal 2 tm.tm_hour ++ (decimal 2 tm.tm_min ++ decimal 2 tm.tm_sec)

theorem CalendarTime.date_length : tm.date.length = 8 := by
  have year := tm.year
  have month := tm.month
  have day := tm.day
  have yearDigits : (decimal 0 (tm.tm_year + 1900)).length = 4 :=
    decimal_zero_length (by omega) (by omega)
  rw [date, List.length_append, List.length_append, yearDigits,
    decimal_length (by decide) (by omega) (by omega),
    decimal_length (by decide) (by omega) (by omega)]

theorem CalendarTime.time_length : tm.time.length = 6 := by
  have hour := tm.hour
  have minute := tm.minute
  have second := tm.second
  rw [time, List.length_append, List.length_append,
    decimal_length (by decide) (by omega) (by omega),
    decimal_length (by decide) (by omega) (by omega),
    decimal_length (by decide) (by omega) (by omega)]

theorem CalendarTime.date_plain : PlainText tm.date :=
  (decimal_plain _ _).append ((decimal_plain _ _).append (decimal_plain _ _))

theorem CalendarTime.time_plain : PlainText tm.time :=
  (decimal_plain _ _).append ((decimal_plain _ _).append (decimal_plain _ _))

theorem clientHeartbeatText_eq :
    clientHeartbeatText tm m_strEPID =
      some (ascii "03_ServerDate=".toList ++ (tm.date ++
        (ascii ",ServerTime=".toList ++ (tm.time ++
          (ascii "00,EPID=".toList ++
            (cStr m_strEPID ++ ascii ",\r\n".toList)))))) := by
  simp only [CalendarTime.date, CalendarTime.time, List.append_assoc]
  rfl

/-- The members of the first object for the monitor. -/
def heartbeatMembers : List (Bytes × Bytes) :=
  [(ascii "Type".toList, ascii "Heartbeat".toList),
    (ascii "Component".toList, ascii "Quote".toList),
    (ascii "Hostname".toList, hostname.name),
    (ascii "ServerDate".toList, tm.date),
    (ascii "ServerTime".toList, tm.time ++ ascii "00".toList)]

/-- The members of the second object for the monitor. -/
def systemMembers : List (Bytes × Bytes) :=
  [(ascii "Type".toList, ascii "System".toList),
    (ascii "Component".toList, ascii "Quote".toList),
    (ascii "Hostname".toList, hostname.name),
    (ascii "CurrentThread".toList,
      decimal 0 g_MNTRMSG.num_of_thread_Current),
    (ascii "MaxThread".toList, decimal 0 g_MNTRMSG.num_of_thread_Max),
    (ascii "MemoryUsage".toList, whole g_MNTRMSG.process_vm_mb)]

theorem monitorHeartbeatText_eq :
    monitorHeartbeatText tm hostname =
      some (jsonObject (heartbeatMembers tm hostname)) := by
  simp only [heartbeatMembers, CalendarTime.date, CalendarTime.time,
    jsonObject, jsonMember, jsonString, List.map_cons, List.map_nil,
    List.intercalate_cons_cons, List.intercalate_singleton,
    List.append_assoc, List.cons_append, List.nil_append]
  rfl

theorem monitorSystemText_eq :
    monitorSystemText hostname g_MNTRMSG =
      some (jsonObject (systemMembers hostname g_MNTRMSG)) := by
  simp only [systemMembers, jsonObject, jsonMember, jsonString, List.map_cons,
    List.map_nil, List.intercalate_cons_cons, List.intercalate_singleton,
    List.append_assoc, List.cons_append, List.nil_append]
  rfl

theorem jsonObject_heartbeatMembers_length :
    (jsonObject (heartbeatMembers tm hostname)).length =
      102 + hostname.name.length := by
  simp [jsonObject, jsonMember, jsonString, heartbeatMembers,
    List.intercalate_cons_cons, tm.date_length, tm.time_length]
  omega

theorem jsonObject_systemMembers_length :
    (jsonObject (systemMembers hostname g_MNTRMSG)).length =
      102 + (hostname.name.length +
        (decimal 0 g_MNTRMSG.num_of_thread_Current).length +
        (decimal 0 g_MNTRMSG.num_of_thread_Max).length +
        (whole g_MNTRMSG.process_vm_mb).length) := by
  simp [jsonObject, jsonMember, jsonString, systemMembers,
    List.intercalate_cons_cons]
  omega

theorem isJsonObject_heartbeatMembers :
    IsJsonObject (jsonObject (heartbeatMembers tm hostname)) := by
  refine ⟨heartbeatMembers tm hostname, ?_, rfl⟩
  simp only [heartbeatMembers, List.forall_mem_cons]
  exact ⟨⟨by decide, by decide⟩, ⟨by decide, by decide⟩,
    ⟨by decide, hostname.plain⟩, ⟨by decide, tm.date_plain⟩,
    ⟨by decide, tm.time_plain.append (by decide)⟩, by simp⟩

theorem isJsonObject_systemMembers :
    IsJsonObject (jsonObject (systemMembers hostname g_MNTRMSG)) := by
  refine ⟨systemMembers hostname g_MNTRMSG, ?_, rfl⟩
  simp only [systemMembers, List.forall_mem_cons]
  exact ⟨⟨by decide, by decide⟩, ⟨by decide, by decide⟩,
    ⟨by decide, hostname.plain⟩, ⟨by decide, decimal_plain _ _⟩,
    ⟨by decide, decimal_plain _ _⟩, ⟨by decide, whole_plain _⟩, by simp⟩

/-- The message for a client is whole just when it fits. -/
theorem clientHeartbeatWhole_iff :
    ClientHeartbeatWhole tm m_strEPID ↔ (cStr m_strEPID).length ≤ 76 := by
  obtain ⟨text, formatted⟩ :
      ∃ text, clientHeartbeatText tm m_strEPID = some text :=
    ⟨_, clientHeartbeatText_eq tm m_strEPID⟩
  have same := formatted
  rw [clientHeartbeatText_eq, Option.some.injEq] at same
  have length : text.length = 51 + (cStr m_strEPID).length := by
    simp [← same, tm.date_length, tm.time_length]
    omega
  have clean : 0 ∉ text := by
    have number := tm.date_plain.zero_not_mem
    have clock := tm.time_plain.zero_not_mem
    have epid := zero_not_mem_cStr m_strEPID
    simp only [← same, List.mem_append, number, clock, epid,
      false_or]
    decide
  by_cases fits : text.length < 128
  · have sent : clientHeartbeatRequest tm m_strEPID = some text := by
      simp [clientHeartbeatRequest, formatted, sprintf_of_lt, fits,
        filledPart_append clean]
    exact iff_of_true ⟨text, formatted, sent⟩ (by omega)
  · have lost : clientHeartbeatRequest tm m_strEPID = none := by
      simp [clientHeartbeatRequest, formatted, sprintf_of_le, not_lt.mp fits]
    refine iff_of_false ?_ (by omega)
    rintro ⟨other, -, sent⟩
    simp [lost] at sent

/-- What the monitor is sent: the first message leaves the array for a host name
of more than 25 characters, and the second one is cut off after 127. -/
theorem serversHeartbeatRequest_eq :
    serversHeartbeatRequest tm hostname g_MNTRMSG =
      if hostname.name.length ≤ 25 then
        some (jsonObject (heartbeatMembers tm hostname),
          (jsonObject (systemMembers hostname g_MNTRMSG)).take 127)
      else none := by
  have length := jsonObject_heartbeatMembers_length tm hostname
  have clean := (isJsonObject_heartbeatMembers tm hostname).zero_not_mem
  have cleanSystem :=
    (isJsonObject_systemMembers hostname g_MNTRMSG).zero_not_mem
  unfold serversHeartbeatRequest
  rw [monitorHeartbeatText_eq, monitorSystemText_eq]
  generalize jsonObject (heartbeatMembers tm hostname) = heartbeat
    at length clean ⊢
  generalize jsonObject (systemMembers hostname g_MNTRMSG) = system
    at cleanSystem ⊢
  by_cases fits : hostname.name.length ≤ 25
  · have first : heartbeat.length < (zeroed 128).length := by simp; omega
    let array := heartbeat ++ 0 :: (zeroed 128).drop (heartbeat.length + 1)
    have size : array.length = 128 := by simp [array]; omega
    have second : (system.take (array.length - 1)).length < array.length := by
      rw [List.length_take]
      omega
    have cut : 0 ∉ system.take 127 :=
      fun member => cleanSystem (List.mem_of_mem_take member)
    have sent : snprintf array system = some (system.take 127 ++
        0 :: array.drop ((system.take 127).length + 1)) := by
      rw [snprintf, sprintf_of_lt second, size]
    simp [sprintf_of_lt first, filledPart_append clean, array, sent, fits,
      filledPart_append cut]
  · have long : (zeroed 128).length ≤ heartbeat.length := by simp; omega
    simp [sprintf_of_le long, fits]

/-- Both messages for the monitor are whole just when the host name and the
numbers in the second one leave enough room. -/
theorem monitorHeartbeatsWhole_iff :
    MonitorHeartbeatsWhole tm hostname g_MNTRMSG ↔
      hostname.name.length +
        (decimal 0 g_MNTRMSG.num_of_thread_Current).length +
        (decimal 0 g_MNTRMSG.num_of_thread_Max).length +
        (whole g_MNTRMSG.process_vm_mb).length ≤ 25 := by
  have length := jsonObject_systemMembers_length hostname g_MNTRMSG
  constructor
  · rintro ⟨heartbeat, system, -, formatted, sent, -⟩
    rw [monitorSystemText_eq, Option.some.injEq] at formatted
    rw [serversHeartbeatRequest_eq, Option.ite_none_right_eq_some,
      Option.some.injEq, Prod.mk.injEq, ← formatted,
      List.take_eq_self_iff] at sent
    omega
  · intro fits
    refine ⟨_, _, monitorHeartbeatText_eq tm hostname,
      monitorSystemText_eq hostname g_MNTRMSG, ?_,
      isJsonObject_heartbeatMembers tm hostname,
      isJsonObject_systemMembers hostname g_MNTRMSG⟩
    rw [serversHeartbeatRequest_eq, if_pos (by omega),
      List.take_of_length_le (by omega)]

/-- The three heartbeat messages are whole just when the identification from the
configuration, and the host name with the numbers, are short enough. -/
theorem heartbeats_whole_iff :
    (ClientHeartbeatWhole tm m_strEPID ↔ (cStr m_strEPID).length ≤ 76) ∧
      (MonitorHeartbeatsWhole tm hostname g_MNTRMSG ↔
        hostname.name.length +
          (decimal 0 g_MNTRMSG.num_of_thread_Current).length +
          (decimal 0 g_MNTRMSG.num_of_thread_Max).length +
          (whole g_MNTRMSG.process_vm_mb).length ≤ 25) :=
  ⟨clientHeartbeatWhole_iff tm m_strEPID,
    monitorHeartbeatsWhole_iff tm hostname g_MNTRMSG⟩

end Texts

/-- An identification of 77 characters leaves the array, and a host name of 20
is enough to cut off the second message for the monitor. -/
theorem heartbeats_not_whole :
    ¬ ClientHeartbeatWhole
        ⟨124, 0, 31, 23, 59, 58, by decide, by decide, by decide, by decide,
          by decide, by decide⟩
        (List.replicate 77 65) ∧
      ¬ MonitorHeartbeatsWhole
        ⟨124, 0, 31, 23, 59, 58, by decide, by decide, by decide, by decide,
          by decide, by decide⟩
        ⟨List.replicate 20 113, by decide, by decide⟩ ⟨12, 14, 1234⟩ := by
  rw [clientHeartbeatWhole_iff, monitorHeartbeatsWhole_iff]
  decide

end ArstQuote
