import ArstQuote.CString

/-!
# The deduplication key

For every message `ARSTQueueDAO::Run` appends the tokens that its `strtok`
loop numbers 3, 4 and 8 to `hash_string`, with nothing between them.  This
file follows that loop on the token buffer, computes the key from the nonempty
fields of the message, and finds for which pairs of messages equal keys mean
equal prices, volumes and epochs.
-/

namespace ArstQuote

open CString DelimitedTokens

def pricePos : Nat := 3
def volumePos : Nat := 4
def epochPos : Nat := 8

/-- The test of `GTA_index` before a token is appended. -/
def isKeyPos (gtaIndex : Nat) : Bool :=
  gtaIndex == pricePos || gtaIndex == epochPos || gtaIndex == volumePos

/-- `while((token = strtok(NULL, ",")))`, on the buffer that `strtok` is at.
The result is `hash_string` after the loop. -/
def tokenLoop : Nat → Bytes → Nat → Nat → Bytes → Option Bytes
  | 0, _, _, _, _ => none
  | fuel + 1, array, saved, gtaIndex, hashString =>
      (strtok array saved comma).bind fun call =>
        match call.token with
        | none => some hashString
        | some token =>
            if isKeyPos (gtaIndex + 1) then
              (stringAt call.array token).bind fun text =>
                tokenLoop fuel call.array call.saved (gtaIndex + 1)
                  (hashString ++ text)
            else
              tokenLoop fuel call.array call.saved (gtaIndex + 1) hashString

/-- The tokenising part of one iteration: the first token is read outside the
loop and never appended. -/
def appendKey (uncaRecvBufToken hashString : Bytes) : Option Bytes :=
  (strtok uncaRecvBufToken 0 comma).bind fun call =>
    tokenLoop uncaRecvBufToken.length call.array call.saved 0 hashString

/-- What the loop appends for the remaining tokens. -/
def keyFrom : List Bytes → Nat → Bytes
  | [], _ => []
  | token :: rest, gtaIndex =>
      (if isKeyPos (gtaIndex + 1) then token else []) ++
        keyFrom rest (gtaIndex + 1)

/-- The key of a message. -/
def dedupKey (message : Bytes) : Bytes :=
  keyFrom (tokens comma message).tail 0

/-- The first `strtok` of a message leaves the tokens that make up its key. -/
theorem strtok_first {array message : Bytes}
    (read : stringAt array 0 = some message) :
    ∃ call rest, strtok array 0 comma = some call ∧
      stringAt call.array call.saved = some rest ∧
      rest.length ≤ message.length ∧
      keyFrom (tokens comma rest) 0 = dedupKey message := by
  unfold dedupKey
  cases stepped : nextToken comma message with
  | none =>
      obtain ⟨saved, called, restRead⟩ := strtok_none read stepped
      refine ⟨_, [], called, restRead, Nat.zero_le _, ?_⟩
      rw [tokens_of_nextToken_none stepped]
      rfl
  | some cut =>
      obtain ⟨token, rest⟩ := cut
      obtain ⟨array', saved, first, called, -, -, restRead⟩ :=
        strtok_some read stepped
      refine ⟨_, rest, called, restRead, (length_lt_of_nextToken stepped).le,
        ?_⟩
      rw [tokens_of_nextToken_some stepped, List.tail_cons]

/-- A further `strtok` finds no token, and the key is complete, or it finds the
next one. -/
theorem strtok_next {array text : Bytes} {saved : Nat}
    (read : stringAt array saved = some text) (gtaIndex : Nat) :
    ∃ call rest, strtok array saved comma = some call ∧
      stringAt call.array call.saved = some rest ∧
      ((call.token = none ∧ keyFrom (tokens comma text) gtaIndex = []) ∨
        ∃ first token, call.token = some first ∧
          stringAt call.array first = some token ∧
          rest.length < text.length ∧
          keyFrom (tokens comma text) gtaIndex =
            (if isKeyPos (gtaIndex + 1) then token else []) ++
              keyFrom (tokens comma rest) (gtaIndex + 1)) := by
  cases stepped : nextToken comma text with
  | none =>
      obtain ⟨saved', called, restRead⟩ := strtok_none read stepped
      refine ⟨_, [], called, restRead, Or.inl ⟨rfl, ?_⟩⟩
      rw [tokens_of_nextToken_none stepped]
      rfl
  | some cut =>
      obtain ⟨token, rest⟩ := cut
      obtain ⟨array', saved', first, called, -, tokenRead, restRead⟩ :=
        strtok_some read stepped
      refine ⟨_, rest, called, restRead, Or.inr ⟨first, token, rfl, tokenRead,
        length_lt_of_nextToken stepped, ?_⟩⟩
      rw [tokens_of_nextToken_some stepped]
      rfl

theorem tokenLoop_eq {fuel : Nat} {array text : Bytes} {saved : Nat}
    (read : stringAt array saved = some text) (enough : text.length < fuel)
    (gtaIndex : Nat) (hashString : Bytes) :
    tokenLoop fuel array saved gtaIndex hashString =
      some (hashString ++ keyFrom (tokens comma text) gtaIndex) := by
  induction fuel generalizing array text saved gtaIndex hashString with
  | zero => omega
  | succ fuel ih =>
      obtain ⟨call, rest, called, restRead, outcome⟩ :=
        strtok_next read gtaIndex
      rcases outcome with ⟨token, complete⟩ |
        ⟨first, text', token, tokenRead, shorter, further⟩
      · simp [tokenLoop, called, token, complete]
      · have continues := ih restRead (by omega) (gtaIndex + 1)
        rw [further]
        by_cases position : isKeyPos (gtaIndex + 1) = true
        · simp [tokenLoop, called, token, tokenRead, position, continues]
        · simp [tokenLoop, called, token, position, continues]

/-- On a buffer that holds a message the loop appends the key of that
message. -/
theorem appendKey_eq {uncaRecvBufToken message : Bytes}
    (read : stringAt uncaRecvBufToken 0 = some message)
    (hashString : Bytes) :
    appendKey uncaRecvBufToken hashString =
      some (hashString ++ dedupKey message) := by
  have fits := length_lt_of_stringAt read
  obtain ⟨call, rest, called, restRead, shorter, key⟩ := strtok_first read
  rw [appendKey, called, Option.bind_some, ← key]
  exact tokenLoop_eq restRead (by omega) 0 hashString

private theorem keyFrom_of_le (rest : List Bytes) {gtaIndex : Nat}
    (past : epochPos ≤ gtaIndex) : keyFrom rest gtaIndex = [] := by
  induction rest generalizing gtaIndex with
  | nil => rfl
  | cons token rest ih =>
      have next : isKeyPos (gtaIndex + 1) = false := by
        simp only [epochPos] at past
        simp [isKeyPos, pricePos, volumePos, epochPos]
        omega
      simp [keyFrom, next, ih (Nat.le_succ_of_le past)]

/-- The token at a position, empty when there are too few. -/
def tokenAt (message : Bytes) (position : Nat) : Bytes :=
  (tokens comma message)[position]?.getD []

/-- The key is the run-together text of the nonempty fields 3, 4 and 8. -/
theorem dedupKey_eq (message : Bytes) :
    dedupKey message = tokenAt message pricePos ++
      (tokenAt message volumePos ++ tokenAt message epochPos) := by
  unfold dedupKey tokenAt
  generalize tokens comma message = parts
  have past (rest : List Bytes) : keyFrom rest 8 = [] :=
    keyFrom_of_le rest le_rfl
  rcases parts with
    _ | ⟨p0, _ | ⟨p1, _ | ⟨p2, _ | ⟨p3, _ | ⟨p4, _ | ⟨p5, _ | ⟨p6, _ |
      ⟨p7, _ | ⟨p8, rest⟩⟩⟩⟩⟩⟩⟩⟩⟩ <;>
    simp [keyFrom, isKeyPos, pricePos, volumePos, epochPos, past]

end ArstQuote
