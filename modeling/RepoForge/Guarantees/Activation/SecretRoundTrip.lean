import RepoForge.Source.Activation.AgentSecret

/-!
# The secret that is read back

The reader accepts one line of the grammar and nothing else; what was written is read back where it
fits under the reader's cap, which the writer does not look at.
-/
namespace RepoForge.AgentSecret

variable {printable : Char → Bool} {given : Nat → Nat}

section Texts

theorem encode_ofText (t : Text) : encode (PyStr.ofText t) = PyStr.utf8 t := by
  rw [encode, PyStr.replaced_ofText]

theorem length_encode_append (s t : PyStr) :
    (encode (s ++ t)).length = (encode s).length + (encode t).length := by
  simp [encode, PyStr.utf8, PyStr.replaced]

theorem decode_encode {s : PyStr} (clean : s.encodable = true) :
    (PyStr.decode (encode s)).map PyStr.ofText = some s := by
  rw [encode, PyStr.decode_utf8, Option.map_some, PyStr.ofText_replaced clean]

theorem encode_decode {raw : Bytes} {t : Text} (read : PyStr.decode raw = some t) :
    raw = encode (PyStr.ofText t) := by
  rw [PyStr.decode, Option.map_eq_some_iff] at read
  obtain ⟨chars, read, rfl⟩ := read
  have whole := ByteArray.utf8Encode_get_utf8Decode? (b := raw.toByteArray) (h := by rw [read]; rfl)
  simp only [read, Option.get_some, List.utf8Encode] at whole
  rw [encode_ofText, PyStr.utf8]
  have bytes := congrArg (fun b : ByteArray => b.data.toList) whole
  simpa using bytes.symm

theorem lines_line {line : PyStr} (apart : CodePoint.scalar '\n' ∉ line) (filled : line ≠ []) :
    lines line = [line] := by
  rw [lines, List.splitOn_eq_singleton apart]
  exact if_neg (by simpa using filled)

theorem lines_ended {line : PyStr} (apart : CodePoint.scalar '\n' ∉ line) :
    lines (line ++ PyStr.lit "\n") = [line] := by
  have two : (line ++ PyStr.lit "\n").splitOn (.scalar '\n') = [line, []] :=
    List.splitOn_append_cons_self_of_not_mem apart []
  rw [lines, two]
  rfl

theorem of_lines {text line : PyStr} (one : lines text = [line]) :
    text = line ∨ text = line ++ PyStr.lit "\n" := by
  have whole : [CodePoint.scalar '\n'].intercalate (text.splitOn (.scalar '\n')) = text :=
    List.intercalate_splitOn _
  rw [lines] at one
  split at one
  · rename_i ended
    have parts : text.splitOn (.scalar '\n') = [line, []] := by
      rw [← List.dropLast_append_getLast? [] ended, one]
      rfl
    rw [parts] at whole
    exact .inr (by rw [← whole]; simp [List.intercalate, PyStr.lit, PyStr.ofText])
  · rw [one] at whole
    exact .inl (by rw [← whole]; simp [List.intercalate])

end Texts

section Grammar

theorem validSecretValue_iff {value : PyStr} : validSecretValue printable value = true ↔
    value ≠ [] ∧ value.all (·.within printable) = true ∧
      value.any (·.within PyText.isSpace) = false := by
  simp [validSecretValue, and_assoc]

/-- A line of the key and a value. -/
def secretLine (value : PyStr) : PyStr := agentSecretKey ++ PyStr.lit "=" ++ value

theorem partition_secretLine (value : PyStr) :
    PyStr.partition (PyStr.lit "=") (secretLine value) = (agentSecretKey, true, value) := by
  have key : CodePoint.scalar '=' ∉ agentSecretKey := by decide
  have line : secretLine value = agentSecretKey ++ CodePoint.scalar '=' :: value := by
    simp [secretLine, PyStr.lit, PyStr.ofText]
  rw [line]
  exact PyStr.partition_at key

theorem newline_apart {value : PyStr} (free : value.any (·.within PyText.isSpace) = false) :
    CodePoint.scalar '\n' ∉ secretLine value := by
  have fixed : CodePoint.scalar '\n' ∉ agentSecretKey ++ PyStr.lit "=" := by decide
  have inside : CodePoint.scalar '\n' ∉ value := by
    intro here
    rw [List.any_eq_false] at free
    exact free _ here rfl
  rw [secretLine, List.mem_append, not_or]
  exact ⟨fixed, inside⟩

theorem secretLine_encodable {value : PyStr} (all : value.all (·.within printable) = true) :
    (secretLine value).encodable = true ∧ (secretLine value ++ PyStr.lit "\n").encodable = true := by
  have fixed : (agentSecretKey ++ PyStr.lit "=").encodable = true := by decide
  have ended : (PyStr.lit "\n").encodable = true := by decide
  have clean := PyStr.encodable_of_within all
  rw [PyStr.encodable] at fixed ended clean
  simp only [secretLine, PyStr.encodable, List.all_append, fixed, ended, clean, Bool.and_self,
    and_self]

theorem parse_line {value text : PyStr} {raw : Bytes} (valid : validSecretValue printable value = true)
    (short : raw.length ≤ agentSecretMaxBytes) (clean : text.encodable = true)
    (written : raw = encode text) (one : lines text = [secretLine value]) :
    parseAgentSecret printable raw = (true, value, true) := by
  have filled := (validSecretValue_iff.mp valid).1
  have read := decode_encode clean
  rw [← written, Option.map_eq_some_iff] at read
  obtain ⟨chars, read, same⟩ := read
  rw [parseAgentSecret, if_neg (Nat.not_lt.mpr short), read]
  dsimp only
  rw [same, one]
  dsimp only
  rw [partition_secretLine]
  simp [filled, valid]

theorem of_parse {value : PyStr} {raw : Bytes} (filled : value ≠ [])
    (parsed : parseAgentSecret printable raw = (true, value, true)) :
    raw.length ≤ agentSecretMaxBytes ∧ validSecretValue printable value = true ∧
      (raw = encode (secretLine value) ∨ raw = encode (secretLine value ++ PyStr.lit "\n")) := by
  unfold parseAgentSecret at parsed
  split at parsed
  · cases parsed
  rename_i short
  split at parsed
  · cases parsed
  rename_i chars read
  split at parsed
  · rename_i line one
    have parts := @PyStr.partition_eq (PyStr.lit "=") line
    generalize PyStr.partition (PyStr.lit "=") line = partition at parsed parts
    obtain ⟨name, separator, rest⟩ := partition
    dsimp only at parsed parts
    split at parsed
    · cases parsed
    rename_i named
    split at parsed
    · cases parsed
      exact absurd rfl filled
    split at parsed
    · cases parsed
    rename_i valid
    cases parsed
    simp only [Bool.or_eq_true, Bool.not_eq_true', decide_eq_true_eq, not_or, Bool.not_eq_false,
      not_not] at named valid
    obtain ⟨found, rfl⟩ := named
    rw [found, if_pos rfl, ← List.append_assoc] at parts
    refine ⟨Nat.not_lt.mp short, valid, ?_⟩
    rw [encode_decode read, secretLine, ← parts]
    exact (of_lines one).imp (congrArg encode) (congrArg encode)
  · cases parsed

/-- The bytes that give a usable secret are those of the grammar. -/
theorem parse_iff {value : PyStr} {raw : Bytes} :
    (parseAgentSecret printable raw = (true, value, true) ∧ value ≠ []) ↔
      raw.length ≤ agentSecretMaxBytes ∧ validSecretValue printable value = true ∧
        (raw = encode (secretLine value) ∨ raw = encode (secretLine value ++ PyStr.lit "\n")) := by
  constructor
  · rintro ⟨parsed, filled⟩
    exact of_parse filled parsed
  · rintro ⟨short, valid, written⟩
    obtain ⟨filled, all, free⟩ := validSecretValue_iff.mp valid
    obtain ⟨clean, clean'⟩ := secretLine_encodable all
    have apart := newline_apart free
    refine ⟨?_, filled⟩
    cases written with
    | inl written =>
      refine parse_line valid short clean written (lines_line apart ?_)
      simp [secretLine, PyStr.lit, PyStr.ofText]
    | inr written => exact parse_line valid short clean' written (lines_ended apart)

end Grammar

section File

/-- However the reads are cut, the beginning of the file is read. -/
theorem readAll_eq {limit total : Nat} {left : Bytes} :
    readAll given limit total left = left.take (limit - total) := by
  induction h : limit - total using Nat.strongRecOn generalizing total left with
  | ind rest ih =>
    rw [readAll]
    split
    · rename_i ended
      rcases ended with full | rfl
      · rw [show rest = 0 by omega, List.take_zero]
      · rw [List.take_nil]
    · rename_i going
      dsimp only
      rw [ih (rest - min (given total + 1) (min 65536 (limit - total))) (by omega) (by omega),
        ← List.take_add]
      congr 1
      omega

theorem parse_take {content : Bytes} :
    parseAgentSecret printable (content.take (agentSecretMaxBytes + 1)) =
      parseAgentSecret printable content := by
  by_cases short : content.length ≤ agentSecretMaxBytes
  · rw [List.take_of_length_le (by omega)]
  · have long : agentSecretMaxBytes < (content.take (agentSecretMaxBytes + 1)).length := by
      rw [List.length_take]
      omega
    rw [parseAgentSecret, if_pos long, parseAgentSecret, if_pos (by omega)]

/-- A file as it was written is trusted where the parser gives a secret. -/
theorem load_iff {content : Bytes} {secret : PyStr} :
    loadAgentSecret printable given (.regular true agentEnvMode content) = .ok secret ↔
      parseAgentSecret printable content = (true, secret, true) ∧ secret ≠ [] := by
  rw [loadAgentSecret, inspectAgentSecret]
  dsimp only
  rw [readAll_eq, Nat.sub_zero, parse_take]
  generalize parseAgentSecret printable content = parsed
  obtain ⟨keyPresent, value, parseValid⟩ := parsed
  cases keyPresent <;> cases parseValid <;> by_cases empty : value = [] <;>
    simp [AgentSecretStatus.usable, agentEnvMode, empty]
  rintro rfl
  exact empty

end File

section RoundTrip

variable {values : List (PyStr × PyStr)} {file : Bytes} {value : PyStr}

theorem of_write (written : writeAgentEnv printable values = .ok file)
    (stored : PyDict.get values agentSecretKey = some value) :
    validSecretValue printable value = true ∧
      file = encode (secretLine value ++ PyStr.lit "\n") := by
  unfold writeAgentEnv at written
  dsimp only at written
  split at written
  · cases written
  rw [stored] at written
  dsimp only at written
  split at written
  · cases written
  · rename_i valid
    cases written
    exact ⟨by simpa using valid, rfl⟩

theorem length_written (value : PyStr) :
    (encode (secretLine value ++ PyStr.lit "\n")).length = (encode value).length + 23 := by
  have key : (encode (agentSecretKey ++ PyStr.lit "=")).length = 22 := by decide
  have ended : (encode (PyStr.lit "\n")).length = 1 := by decide
  rw [secretLine, length_encode_append, length_encode_append, key, ended]
  omega

theorem load_written (written : writeAgentEnv printable values = .ok file)
    (stored : PyDict.get values agentSecretKey = some value) :
    loadAgentSecret printable given (.regular true agentEnvMode file) = .ok value ↔
      (encode value).length ≤ 8169 := by
  obtain ⟨valid, rfl⟩ := of_write written stored
  have size := length_written value
  rw [load_iff, parse_iff, size, agentSecretMaxBytes]
  constructor
  · rintro ⟨short, -⟩
    omega
  · intro short
    exact ⟨by omega, valid, .inr rfl⟩

end RoundTrip

/-- What was written is read back just when the value has at most 8169 bytes, and the bytes that give
a usable secret are those of the grammar. -/
theorem secret_round_trip (printable : Char → Bool) (given : Nat → Nat) :
    (∀ values file value, writeAgentEnv printable values = .ok file →
      PyDict.get values agentSecretKey = some value →
      (loadAgentSecret printable given (.regular true agentEnvMode file) = .ok value ↔
        (encode value).length ≤ 8169)) ∧
    ∀ raw value, (parseAgentSecret printable raw = (true, value, true) ∧ value ≠ []) ↔
      raw.length ≤ agentSecretMaxBytes ∧
        (raw = encode (agentSecretKey ++ PyStr.lit "=" ++ value) ∨
          raw = encode (agentSecretKey ++ PyStr.lit "=" ++ value ++ PyStr.lit "\n")) ∧
        value ≠ [] ∧ value.all (·.within printable) = true ∧
        value.any (·.within PyText.isSpace) = false := by
  constructor
  · intro values file value written stored
    exact load_written written stored
  · intro raw value
    rw [parse_iff, validSecretValue_iff, secretLine]
    constructor
    · rintro ⟨short, valid, written⟩
      exact ⟨short, written, valid⟩
    · rintro ⟨short, written, valid⟩
      exact ⟨short, valid, written⟩

section Witness

/-- The printable characters of ASCII. -/
def asciiPrintable (c : Char) : Bool := 32 ≤ c.toNat && c.toNat < 127

theorem secret_round_trip_short :
    loadAgentSecret asciiPrintable (fun _ => 0) (.regular true agentEnvMode
      (encode (PyStr.lit "CONTROL_PLANE_API_KEY=sk-1\n"))) = .ok (PyStr.lit "sk-1") :=
  ((secret_round_trip asciiPrintable fun _ => 0).1 [(agentSecretKey, PyStr.lit "sk-1")] _ _ (by decide) (by decide)).mpr
    (by decide)

theorem long_value (n : Nat) :
    validSecretValue asciiPrintable (List.replicate (n + 1) (.scalar 'a')) = true ∧
      (encode (List.replicate n (.scalar 'a'))).length = n := by
  constructor
  · have classes : (CodePoint.scalar 'a').within asciiPrintable = true ∧
        (CodePoint.scalar 'a').within PyText.isSpace = false := by decide
    rw [validSecretValue_iff, List.all_replicate, List.any_replicate]
    simp [classes]
  · induction n with
    | zero => rfl
    | succ n ih =>
      have one : (encode [.scalar 'a']).length = 1 := by decide
      rw [List.replicate_succ, ← List.singleton_append, length_encode_append, ih, one, Nat.add_comm]

/-- A value of 8170 bytes is written and then refused. -/
theorem secret_too_long : ∃ values file value, writeAgentEnv asciiPrintable values = .ok file ∧
    PyDict.get values agentSecretKey = some value ∧
    loadAgentSecret asciiPrintable (fun _ => 0) (.regular true agentEnvMode file) ≠ .ok value := by
  obtain ⟨valid, -⟩ := long_value 8169
  obtain ⟨-, size⟩ := long_value 8170
  generalize List.replicate (8169 + 1) (CodePoint.scalar 'a') = value at valid size
  have stored : PyDict.get [(agentSecretKey, value)] agentSecretKey = some value := by
    simp [PyDict.get]
  have written : writeAgentEnv asciiPrintable [(agentSecretKey, value)] =
      .ok (encode (agentSecretKey ++ PyStr.lit "=" ++ value ++ PyStr.lit "\n")) := by
    simp [writeAgentEnv, stored, valid, PyStr.sortedDistinct]
  refine ⟨_, _, value, written, stored, fun read => ?_⟩
  have short := (load_written written stored).mp read
  omega

end Witness

end RepoForge.AgentSecret
