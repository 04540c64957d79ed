import RepoForge.Source.Retrieval.Pagination

/-!
# Cursors are read as they were written

A cursor is a base64 text of a flat JSON object that has another such text in it. Both objects are
read back, so `decodeCursor` makes its last three checks on what `encodeCursor` was given.
-/
namespace RepoForge.Retrieval
open JsonLoads (Value LoadsError Scalar FieldFits flatText fieldText fieldsText fieldValues plain
  printable)

/-- `sys.maxsize`: no Python sequence is longer. -/
@[irreducible] def maxSize : Nat := 2 ^ 63 - 1

section Ascii

theorem utf8_printable {t : Text} (all : ∀ c ∈ t, printable c = true) :
    PyStr.utf8 t = t.map fun c => UInt8.ofNat c.toNat := by
  induction t with
  | nil => rfl
  | cons c t ih =>
    have here := all c (List.mem_cons_self ..)
    simp only [printable, Bool.and_eq_true, decide_eq_true_eq] at here
    have small : c.val.toNat ≤ 0x7f := Nat.le_of_lt_succ (Nat.lt_of_lt_of_le here.2 (by decide))
    have one : String.utf8EncodeChar c = [UInt8.ofNat c.toNat] := by
      rw [String.utf8EncodeChar]
      simp only [small, if_true]
      rfl
    rw [PyStr.utf8, List.flatMap_cons, one]
    exact congrArg _ (ih fun d among => all d (List.mem_cons_of_mem _ among))

theorem length_utf8_printable {t : Text} (all : ∀ c ∈ t, printable c = true) :
    (PyStr.utf8 t).length = t.length := by
  rw [utf8_printable all, List.length_map]

theorem isAscii_printable {t : Text} (all : ∀ c ∈ t, printable c = true) :
    isAscii (PyStr.utf8 t) = true ∧
      (PyStr.utf8 t).map (fun b => Char.ofNat b.toNat) = t := by
  have each : ∀ c ∈ t, (UInt8.ofNat c.toNat).toNat = c.toNat ∧ 0 < c.toNat ∧ c.toNat < 128 := by
    intro c here
    have bounds := all c here
    simp only [printable, Bool.and_eq_true, decide_eq_true_eq] at bounds
    exact ⟨UInt8.toNat_ofNat_of_lt' (show c.toNat < 256 by omega), by omega, by omega⟩
  rw [utf8_printable all, isAscii, List.all_map, List.map_map]
  constructor
  · rw [List.all_eq_true]
    intro c here
    obtain ⟨same, positive, small⟩ := each c here
    have nonzero : UInt8.ofNat c.toNat ≠ 0 := by
      intro zero
      rw [zero] at same
      exact positive.ne same
    have below : UInt8.ofNat c.toNat < 128 := UInt8.lt_iff_toNat_lt.mpr (by rw [same]; exact small)
    simp [nonzero, below]
  · refine (List.map_congr_left fun c here => ?_).trans (List.map_id t)
    rw [Function.comp_apply, (each c here).1, Char.ofNat_toNat, id]

end Ascii

section Documents

variable {R : Runtime}

/-- A flat object in its bytes. -/
theorem loads_flat {fields : List (Text × Scalar)} (some : fields ≠ [])
    (fits : ∀ field ∈ fields, FieldFits field)
    (ordered : fields.Pairwise fun a b => PyStr.ofText a.1 < PyStr.ofText b.1) :
    loads R (PyStr.utf8 (Json.dumpsAscii
      (.dict (fields.map fun field => (PyStr.ofText field.1, field.2.json))))) =
      .ok (.dict (fieldValues fields)) ∧
    (PyStr.utf8 (Json.dumpsAscii (.dict (fields.map fun field =>
      (PyStr.ofText field.1, field.2.json))))).length = (flatText fields).length := by
  have written := JsonLoads.dumpsAscii_flat some fits (ordered.imp le_of_lt)
  have distinct : (fields.map (·.1)).Nodup := by
    rw [List.Nodup, List.pairwise_map]
    exact ordered.imp fun less same => less.ne (congrArg PyStr.ofText same)
  have letters : ∀ c ∈ flatText fields, printable c = true := by
    intro c here
    simp only [flatText, List.mem_cons, List.mem_append, List.not_mem_nil, or_false] at here
    rcases here with rfl | rfl | here | rfl
    · rfl
    · rfl
    · exact JsonLoads.printable_fields fits c here
    · rfl
  obtain ⟨ascii, back⟩ := isAscii_printable letters
  rw [written]
  refine ⟨?_, length_utf8_printable letters⟩
  rw [loads, if_pos ascii, back, JsonLoads.loads_flat R.depth_pos some fits distinct]

/-- A range of code points in which neither a quote nor a backslash is. -/
theorem plain_of_range {c : Char} {low high : Nat}
    (apart : 34 < low ∧ high < 92 ∨ 92 < low ∧ high < 127) (inside : low ≤ c.toNat ∧ c.toNat ≤ high) :
    plain c = true := by
  have quote : c ≠ '"' := by
    rintro rfl
    have : low ≤ 34 := inside.1
    omega
  have slash : c ≠ '\\' := by
    rintro rfl
    have : low ≤ 92 ∧ 92 ≤ high := inside
    omega
  rw [JsonLoads.plain_iff]
  exact ⟨by omega, by omega, quote, slash⟩

theorem plain_of_lowerHex {t : Text} (hex : t.all lowerHex = true) : ∀ c ∈ t, plain c = true := by
  intro c here
  have digit := List.all_eq_true.mp hex c here
  simp only [lowerHex, Char.isDigit, Bool.or_eq_true, Bool.and_eq_true, decide_eq_true_eq] at digit
  cases digit with
  | inl digit => exact @plain_of_range c 48 57 (by decide) digit
  | inr letter => exact @plain_of_range c 97 102 (by decide) letter

theorem plain_token (data : Bytes) : ∀ c ∈ token data, plain c = true := by
  intro c here
  rcases Base64.ranges_of_inAlphabet (Base64.mem_unpadded here) with (((inside | inside) | inside) | rfl) | rfl
  · exact @plain_of_range c 65 90 (by decide) inside
  · exact @plain_of_range c 97 122 (by decide) inside
  · exact @plain_of_range c 48 57 (by decide) inside
  · rfl
  · rfl

theorem untoken_token (data : Bytes) : untoken (token data) = .ok data := by
  rw [untoken, token, Base64.decode_padded]

def payloadFields (binding : Text) (index : Nat) : List (Text × Scalar) :=
  [("binding".toList, .str binding), ("index".toList, .nat index), ("v".toList, .nat 1)]

def envelopeFields (raw : Bytes) : List (Text × Scalar) :=
  [("checksum".toList, .str (checksum raw)), ("payload".toList, .str (token raw))]

theorem length_digits {index : Nat} (small : index ≤ maxSize) :
    (Nat.toDigits 10 index).length ≤ 19 := by
  rw [Nat.length_toDigits_le_iff (by decide) (by decide)]
  exact Nat.lt_of_le_of_lt small (by rw [maxSize]; decide)

theorem payload_read {binding : Text} {index : Nat} (hex : binding.all lowerHex = true)
    (small : index ≤ maxSize) :
    loads R (PyStr.utf8 (Json.dumpsAscii (cursorPayload binding index))) =
        .ok (.dict (fieldValues (payloadFields binding index))) ∧
      (PyStr.utf8 (Json.dumpsAscii (cursorPayload binding index))).length =
        (flatText (payloadFields binding index)).length := by
  have digits := length_digits small
  refine @loads_flat R (payloadFields binding index) (by simp [payloadFields]) ?_ ?_
  · intro field here
    simp only [payloadFields, List.mem_cons, List.not_mem_nil, or_false] at here
    rcases here with rfl | rfl | rfl
    · exact ⟨List.all_eq_true.mp (by dsimp only; decide), plain_of_lowerHex hex⟩
    · exact ⟨List.all_eq_true.mp (by dsimp only; decide), digits.trans (by decide)⟩
    · exact ⟨List.all_eq_true.mp (by dsimp only; decide), show (Nat.toDigits 10 1).length ≤ 4300 by decide⟩
  · simp only [payloadFields, List.pairwise_cons, List.mem_cons, List.not_mem_nil, or_false,
      forall_eq_or_imp, forall_eq, List.Pairwise.nil, and_true, false_implies, implies_true]
    decide

theorem length_checksum (raw : Bytes) : (checksum raw).length = 24 := by
  rw [checksum, List.length_take, (Sha256.hexdigest_hex raw).1]
  rfl

theorem envelope_read (raw : Bytes) :
    loads R (PyStr.utf8 (Json.dumpsAscii (cursorEnvelope raw))) =
        .ok (.dict (fieldValues (envelopeFields raw))) ∧
      (PyStr.utf8 (Json.dumpsAscii (cursorEnvelope raw))).length =
        (flatText (envelopeFields raw)).length := by
  have hex : (checksum raw).all lowerHex = true := by
    rw [List.all_eq_true]
    intro c here
    exact List.all_eq_true.mp (Sha256.hexdigest_hex raw).2 c (List.mem_of_mem_take here)
  refine @loads_flat R (envelopeFields raw) (by simp [envelopeFields]) ?_ ?_
  · intro field here
    simp only [envelopeFields, List.mem_cons, List.not_mem_nil, or_false] at here
    rcases here with rfl | rfl
    · exact ⟨List.all_eq_true.mp (by dsimp only; decide), plain_of_lowerHex hex⟩
    · exact ⟨List.all_eq_true.mp (by dsimp only; decide), plain_token raw⟩
  · simp only [envelopeFields, List.pairwise_cons, List.mem_cons, List.not_mem_nil, or_false,
      forall_eq, List.Pairwise.nil, and_true, false_implies, implies_true]
    decide

end Documents

section RoundTrip

variable {R : Runtime} {binding : Text} {index : Nat}

theorem isText_ofText (t u : Text) : isText (.str (PyStr.ofText t)) u = decide (t = u) := by
  have inj : PyStr.ofText t = PyStr.ofText u ↔ t = u := by
    constructor
    · intro same
      rw [← PyStr.replaced_ofText t, same, PyStr.replaced_ofText]
    · exact congrArg PyStr.ofText
  rw [isText]
  exact decide_eq_decide.mpr inj

theorem token_ne_nil {data : Bytes} (filled : data ≠ []) : token data ≠ [] := by
  intro empty
  have read := untoken_token data
  rw [empty] at read
  exact filled (Except.ok.inj read).symm

theorem length_token_le (data : Bytes) : (token data).length ≤ (data.length + 2) / 3 * 4 :=
  Base64.length_unpadded_le data

/-- A cursor is never too long to be read. -/
theorem length_encodeCursor (R : Runtime) (hex : binding.all lowerHex = true)
    (size : binding.length = 64) (small : index ≤ maxSize) :
    encodeCursor binding index ≠ [] ∧ (encodeCursor binding index).length ≤ maxCursorChars := by
  have digits := length_digits small
  have payload := (payload_read (R := R) hex small).2
  rw [encodeCursor]
  generalize PyStr.utf8 (Json.dumpsAscii (cursorPayload binding index)) = raw at payload ⊢
  have envelope := (envelope_read (R := R) raw).2
  have inner := length_token_le raw
  have whole := length_token_le (PyStr.utf8 (Json.dumpsAscii (cursorEnvelope raw)))
  simp only [flatText, payloadFields, envelopeFields, fieldsText, fieldText, Scalar.text,
    List.length_cons, List.length_append, List.length_nil, size, length_checksum,
    String.length_toList] at payload envelope
  have v : (Nat.toDigits 10 1).length = 1 := rfl
  have names : "binding".length = 7 ∧ "index".length = 5 ∧ "v".length = 1 ∧
    "checksum".length = 8 ∧ "payload".length = 7 := by decide
  refine ⟨token_ne_nil (List.ne_nil_of_length_pos (by omega)), ?_⟩
  rw [maxCursorChars]
  omega

theorem decode_encode (hex : binding.all lowerHex = true) (size : binding.length = 64)
    (small : index ≤ maxSize) (other : Text) (total : Nat) :
    decodeCursor R (some (encodeCursor binding index)) other total =
      if binding = other then
        if index ≤ total then .ok index else .error (.value "cursor contains an invalid position")
      else .error (.value "cursor does not match the exact request or scope") := by
  obtain ⟨filled, short⟩ := length_encodeCursor R hex size small
  have payload := (payload_read (R := R) hex small).1
  have envelope := (envelope_read (R := R)
    (PyStr.utf8 (Json.dumpsAscii (cursorPayload binding index)))).1
  rw [decodeCursor, if_neg (by rintro (empty | long); exacts [filled empty, short.not_gt long])]
  simp only [encodeCursor, untoken_token, ok_bind, envelope]
  generalize PyStr.utf8 (Json.dumpsAscii (cursorPayload binding index)) = raw at payload
  have first : item (.dict (fieldValues (envelopeFields raw))) "payload" =
      .ok (.str (PyStr.ofText (token raw))) := rfl
  have second : item (.dict (fieldValues (envelopeFields raw))) "checksum" =
      .ok (.str (PyStr.ofText (checksum raw))) := rfl
  have version : item (.dict (fieldValues (payloadFields binding index))) "v" = .ok (.int 1) := rfl
  have bound : item (.dict (fieldValues (payloadFields binding index))) "binding" =
      .ok (.str (PyStr.ofText binding)) := rfl
  have position : item (.dict (fieldValues (payloadFields binding index))) "index" =
      .ok (.int index) := rfl
  have text : tokenText (.str (PyStr.ofText (token raw))) = .ok (token raw) := by
    rw [tokenText, if_pos (PyStr.ofText_encodable _), PyStr.replaced_ofText]
  simp only [first, ok_bind, text, untoken_token, second, isText_ofText, decide_true, Bool.not_true,
    Bool.false_eq_true, if_false, payload, version, bound, position, isOne, toInt]
  by_cases same : binding = other
  · simp only [same, decide_true, Bool.not_true, Bool.false_eq_true, if_false, if_true]
    by_cases inside : index ≤ total
    · rw [if_pos inside, if_pos (by omega), Int.toNat_natCast]
    · rw [if_neg inside, if_neg (by omega)]
  · simp only [same, decide_false, Bool.not_false, if_true, if_false]

end RoundTrip

/-- The depth at which the samples stop reading. -/
theorem sampleDepth_pos : 0 < 994 := by decide

end RepoForge.Retrieval
