import Mathlib.Data.List.TakeWhile

/-!
# Fields and tokens of delimited text

Cutting a text at every separator gives its *fields*, empty ones counted.
A tokenizer that skips runs of separators sees only the nonempty fields.  This
file defines the step of such a tokenizer and proves that its successive
tokens are exactly the nonempty fields, in order.  A reader that takes each
separator for the end of a record sees all fields but the last, which is a
record still unfinished.
-/

namespace DelimitedTokens

variable {Symbol : Type*} [DecidableEq Symbol]

/-- The text between consecutive separators, empty fields counted. -/
def fields (separator : Symbol) (text : List Symbol) : List (List Symbol) :=
  text.splitOn separator

def tokens (separator : Symbol) (text : List Symbol) : List (List Symbol) :=
  (fields separator text).filter (· ≠ [])

/-- The complete records of a text, each with the separator that ends it. -/
def records (separator : Symbol) (text : List Symbol) : List (List Symbol) :=
  (fields separator text).dropLast.map (· ++ [separator])

/-- What follows the last separator. -/
def remainder (separator : Symbol) (text : List Symbol) : List Symbol :=
  (fields separator text).getLastD []

/-- Skip separators, then take the text up to the next one.  The second
component is what follows that separator. -/
def nextToken (separator : Symbol) (text : List Symbol) :
    Option (List Symbol × List Symbol) :=
  match text.dropWhile (· = separator) with
  | [] => none
  | symbol :: rest =>
      some ((symbol :: rest).takeWhile (· ≠ separator),
        ((symbol :: rest).dropWhile (· ≠ separator)).tail)

variable {separator : Symbol}

theorem fields_of_not_mem {text : List Symbol} (absent : separator ∉ text) :
    fields separator text = [text] := by
  apply List.splitOnP_eq_singleton
  intro symbol member
  simp only [beq_eq_false_iff_ne]
  rintro rfl
  exact absent member

theorem fields_append_cons (separator : Symbol) (text rest : List Symbol) :
    fields separator (text ++ separator :: rest) =
      fields separator text ++ fields separator rest :=
  List.splitOnP_append_cons text rest (beq_self_eq_true separator)

theorem fields_ne_nil (text : List Symbol) : fields separator text ≠ [] :=
  List.splitOnP_ne_nil _ text

theorem records_of_not_mem {text : List Symbol} (absent : separator ∉ text) :
    records separator text = [] := by
  simp [records, fields_of_not_mem absent]

theorem remainder_of_not_mem {text : List Symbol} (absent : separator ∉ text) :
    remainder separator text = text := by
  simp [remainder, fields_of_not_mem absent]

/-- The first separator ends the first record. -/
theorem records_append_cons {text : List Symbol} (absent : separator ∉ text)
    (rest : List Symbol) :
    records separator (text ++ separator :: rest) =
      (text ++ [separator]) :: records separator rest := by
  have cut : fields separator (text ++ separator :: rest) =
      text :: fields separator rest := by
    rw [fields_append_cons, fields_of_not_mem absent, List.singleton_append]
  rw [records, cut, List.dropLast_cons_of_ne_nil (fields_ne_nil rest)]
  rfl

theorem remainder_append_cons {text : List Symbol} (absent : separator ∉ text)
    (rest : List Symbol) :
    remainder separator (text ++ separator :: rest) =
      remainder separator rest := by
  have nonempty : fields separator rest ≠ [] := fields_ne_nil rest
  obtain ⟨first, others, restFields⟩ := List.exists_cons_of_ne_nil nonempty
  simp [remainder, fields_append_cons, fields_of_not_mem absent, restFields]

/-- A text is its records and what follows them. -/
theorem flatten_records_append (text : List Symbol) :
    (records separator text).flatten ++ remainder separator text = text := by
  induction lengthEq : text.length using Nat.strong_induction_on
    generalizing text with
  | h length ih =>
      by_cases ends : separator ∈ text
      · obtain ⟨first, rest, rfl, absent⟩ := List.eq_append_cons_of_mem ends
        have shorter : rest.length < length := by
          rw [← lengthEq, List.length_append, List.length_cons]
          omega
        rw [records_append_cons absent, remainder_append_cons absent,
          List.flatten_cons, List.append_assoc, ih _ shorter rest rfl]
        simp
      · rw [records_of_not_mem ends, remainder_of_not_mem ends]
        rfl

/-- Whole records at the front of a text are its first records. -/
theorem records_flatten_append {wholes : List (List Symbol)}
    (whole : ∀ record ∈ wholes, ∃ text, separator ∉ text ∧
      record = text ++ [separator]) (rest : List Symbol) :
    records separator (wholes.flatten ++ rest) =
      wholes ++ records separator rest := by
  induction wholes with
  | nil => rfl
  | cons record wholes ih =>
      obtain ⟨text, absent, rfl⟩ := whole record (by simp)
      rw [List.flatten_cons, List.append_assoc, List.append_assoc,
        List.singleton_append, records_append_cons absent, List.cons_append,
        ih fun other member => whole other (List.mem_cons_of_mem _ member)]

theorem remainder_flatten_append {wholes : List (List Symbol)}
    (whole : ∀ record ∈ wholes, ∃ text, separator ∉ text ∧
      record = text ++ [separator]) (rest : List Symbol) :
    remainder separator (wholes.flatten ++ rest) =
      remainder separator rest := by
  induction wholes with
  | nil => rfl
  | cons record wholes ih =>
      obtain ⟨text, absent, rfl⟩ := whole record (by simp)
      rw [List.flatten_cons, List.append_assoc, List.append_assoc,
        List.singleton_append, remainder_append_cons absent,
        ih fun other member => whole other (List.mem_cons_of_mem _ member)]

/-- Text without a separator lies inside one record, or in the remainder. -/
theorem exists_length_le_of_not_mem {text : List Symbol}
    (absent : separator ∉ text) (rest : List Symbol) :
    (∃ record ∈ records separator (text ++ rest),
        text.length ≤ record.length) ∨
      text.length ≤ (remainder separator (text ++ rest)).length := by
  by_cases ends : separator ∈ rest
  · left
    obtain ⟨more, others, rfl, clean⟩ := List.eq_append_cons_of_mem ends
    have together : separator ∉ text ++ more := by
      simp [absent, clean]
    rw [← List.append_assoc, records_append_cons together]
    exact ⟨text ++ more ++ [separator], by simp, by simp⟩
  · right
    rw [remainder_of_not_mem (by simp [absent, ends])]
    simp

@[simp]
theorem tokens_nil : tokens separator [] = [] := by
  simp [tokens, fields_of_not_mem]

@[simp]
theorem tokens_separator_cons (rest : List Symbol) :
    tokens separator (separator :: rest) = tokens separator rest := by
  have cut := fields_append_cons separator [] rest
  rw [List.nil_append] at cut
  simp [tokens, cut, fields_of_not_mem]

theorem tokens_of_not_mem {text : List Symbol} (absent : separator ∉ text)
    (nonempty : text ≠ []) : tokens separator text = [text] := by
  simp [tokens, fields_of_not_mem absent, nonempty]

theorem tokens_append_cons {text : List Symbol} (absent : separator ∉ text)
    (nonempty : text ≠ []) (rest : List Symbol) :
    tokens separator (text ++ separator :: rest) =
      text :: tokens separator rest := by
  simp [tokens, fields_append_cons, fields_of_not_mem absent, nonempty]

theorem ne_nil_of_mem_tokens {text token : List Symbol}
    (member : token ∈ tokens separator text) : token ≠ [] := by
  simpa using (List.mem_filter.mp member).2

theorem tokens_replicate_append (count : Nat) (rest : List Symbol) :
    tokens separator (List.replicate count separator ++ rest) =
      tokens separator rest := by
  induction count with
  | zero => simp
  | succ count ih => simpa [List.replicate_succ] using ih

theorem nextToken_nil : nextToken separator [] = none :=
  rfl

@[simp]
theorem nextToken_separator_cons (rest : List Symbol) :
    nextToken separator (separator :: rest) = nextToken separator rest := by
  simp [nextToken]

theorem nextToken_of_ne {symbol : Symbol} (differs : symbol ≠ separator)
    (rest : List Symbol) :
    nextToken separator (symbol :: rest) =
      some ((symbol :: rest).takeWhile (· ≠ separator),
        ((symbol :: rest).dropWhile (· ≠ separator)).tail) := by
  simp [nextToken, differs]

/-- The tokenizer stops exactly when no token is left. -/
theorem tokens_of_nextToken_none {text : List Symbol}
    (stopped : nextToken separator text = none) :
    tokens separator text = [] := by
  induction text with
  | nil => exact tokens_nil
  | cons symbol rest ih =>
      by_cases equal : symbol = separator
      · subst equal
        rw [nextToken_separator_cons] at stopped
        rw [tokens_separator_cons]
        exact ih stopped
      · simp [nextToken_of_ne equal] at stopped

private theorem split_at_separator (separator : Symbol)
    (text : List Symbol) :
    (text.dropWhile (· ≠ separator) = [] ∧
        text.takeWhile (· ≠ separator) = text) ∨
      text = text.takeWhile (· ≠ separator) ++
        separator :: (text.dropWhile (· ≠ separator)).tail := by
  induction text with
  | nil => simp
  | cons symbol rest ih =>
      by_cases equal : symbol = separator
      · simp [equal]
      · simpa [equal] using ih

/-- What one step of the tokenizer cuts off: the skipped separators, a
nonempty token without separators, and the separator that ends it unless the
text ends first. -/
theorem split_of_nextToken {text token rest : List Symbol}
    (stepped : nextToken separator text = some (token, rest)) :
    ∃ skipped, separator ∉ token ∧ token ≠ [] ∧
      ((rest = [] ∧ text = List.replicate skipped separator ++ token) ∨
        text = List.replicate skipped separator ++
          (token ++ separator :: rest)) := by
  induction text with
  | nil => simp [nextToken_nil] at stepped
  | cons symbol tail ih =>
      by_cases equal : symbol = separator
      · subst equal
        rw [nextToken_separator_cons] at stepped
        obtain ⟨skipped, absent, nonempty, whole | cut⟩ := ih stepped
        · exact ⟨skipped + 1, absent, nonempty,
            Or.inl ⟨whole.1, by rw [whole.2]; rfl⟩⟩
        · exact ⟨skipped + 1, absent, nonempty, Or.inr (by rw [cut]; rfl)⟩
      · rw [nextToken_of_ne equal, Option.some.injEq, Prod.mk.injEq] at stepped
        obtain ⟨rfl, rfl⟩ := stepped
        refine ⟨0, fun member => ?_, by simp [equal], ?_⟩
        · simpa using List.mem_takeWhile_imp member
        · rcases split_at_separator separator (symbol :: tail) with
            ⟨none, whole⟩ | cut
          · exact Or.inl ⟨by rw [none]; rfl, whole.symm⟩
          · exact Or.inr cut

/-- A step of the tokenizer yields the first token and leaves the others. -/
theorem tokens_of_nextToken_some {text token rest : List Symbol}
    (stepped : nextToken separator text = some (token, rest)) :
    tokens separator text = token :: tokens separator rest := by
  obtain ⟨skipped, absent, nonempty, ⟨rfl, rfl⟩ | rfl⟩ :=
    split_of_nextToken stepped
  · rw [tokens_replicate_append, tokens_of_not_mem absent nonempty, tokens_nil]
  · rw [tokens_replicate_append, tokens_append_cons absent nonempty]

theorem length_lt_of_nextToken {text token rest : List Symbol}
    (stepped : nextToken separator text = some (token, rest)) :
    rest.length < text.length := by
  obtain ⟨skipped, -, nonempty, ⟨rfl, rfl⟩ | rfl⟩ := split_of_nextToken stepped
  · have positive := List.length_pos_iff.mpr nonempty
    simp
    omega
  · simp
    omega

end DelimitedTokens
