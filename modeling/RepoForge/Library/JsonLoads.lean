import RepoForge.Library.PyJson

/-!
# JSON as Python reads it

`json.loads` of an ASCII document. A number that is no integer is given by its literal; the keys of
an object are those of a dictionary, the last of two equal ones winning.
-/
namespace RepoForge.JsonLoads

inductive Value where
  | null
  | bool (value : Bool)
  | int (value : Int)
  | float (literal : Text)
  | str (value : PyStr)
  | list (items : List Value)
  | dict (fields : List (PyStr × Value))

inductive LoadsError where
  /-- `json.JSONDecodeError` -/
  | decode
  /-- An integer of more than 4300 digits. -/
  | value
  /-- Nested deeper than the interpreter goes. -/
  | recursion
  deriving DecidableEq, Repr

def blank (c : Char) : Bool := c = ' ' || c = '\t' || c = '\n' || c = '\r'

def skip (t : Text) : Text := t.dropWhile blank

def expect (c : Char) : Text → Except LoadsError Text
  | [] => .error .decode
  | d :: rest => if d = c then .ok rest else .error .decode

section Strings

def hexValue (c : Char) : Option Nat :=
  if c.isDigit then some (c.toNat - 48)
  else if 'a' ≤ c ∧ c ≤ 'f' then some (c.toNat - 87)
  else if 'A' ≤ c ∧ c ≤ 'F' then some (c.toNat - 55) else none

/-- A code point below 65536. -/
def codeUnit (n : Nat) : CodePoint :=
  if h : 0xD800 ≤ n ∧ n < 0xE000 then .surrogate ⟨n - 0xD800, by omega⟩ else .scalar (Char.ofNat n)

/-- The character of `\n` and its like. -/
def escaped : Char → Option Char
  | '"' => some '"'
  | '\\' => some '\\'
  | '/' => some '/'
  | 'b' => some '\x08'
  | 'f' => some '\x0c'
  | 'n' => some '\n'
  | 'r' => some '\r'
  | 't' => some '\t'
  | _ => none

/-- The rest of a string after its quote. -/
def stringFrom : Text → Except LoadsError (PyStr × Text)
  | [] => .error .decode
  | '"' :: rest => .ok ([], rest)
  | '\\' :: 'u' :: a :: b :: c :: d :: rest => do
    match hexValue a, hexValue b, hexValue c, hexValue d with
    | some a, some b, some c, some d => do
      let (s, rest) ← stringFrom rest
      .ok (codeUnit (((a * 16 + b) * 16 + c) * 16 + d) :: s, rest)
    | _, _, _, _ => .error .decode
  | '\\' :: c :: rest =>
    match escaped c with
    | none => .error .decode
    | some c => do
      let (s, rest) ← stringFrom rest
      .ok (.scalar c :: s, rest)
  | c :: rest =>
    if c.toNat < 32 ∨ c = '\\' then .error .decode
    else do
      let (s, rest) ← stringFrom rest
      .ok (.scalar c :: s, rest)

/-- The two halves of a surrogate pair are one character. -/
def joinPairs : PyStr → PyStr
  | .surrogate m :: .surrogate n :: rest =>
    if m.val < 1024 ∧ 1024 ≤ n.val then
      .scalar (Char.ofNat (0x10000 + m.val * 1024 + (n.val - 1024))) :: joinPairs rest
    else .surrogate m :: joinPairs (.surrogate n :: rest)
  | c :: rest => c :: joinPairs rest
  | [] => []

def parseString (t : Text) : Except LoadsError (PyStr × Text) := do
  let (s, rest) ← stringFrom t
  .ok (joinPairs s, rest)

end Strings

section Numbers

def digitsOf (t : Text) : Text := t.takeWhile Char.isDigit

/-- `(\.\d+)?` -/
def fraction : Text → Text
  | '.' :: rest => if digitsOf rest = [] then [] else '.' :: digitsOf rest
  | _ => []

/-- `([eE][-+]?\d+)?` -/
def exponent : Text → Text
  | e :: rest =>
    let sign := rest.take (if rest.head? = some '-' ∨ rest.head? = some '+' then 1 else 0)
    let digits := digitsOf (rest.drop sign.length)
    if (e = 'e' ∨ e = 'E') ∧ digits ≠ [] then e :: (sign ++ digits) else []
  | [] => []

/-- `(-?(?:0|[1-9]\d*))(\.\d+)?([eE][-+]?\d+)?` -/
def parseNumber (t : Text) : Except LoadsError (Value × Text) :=
  let minus := t.head? = some '-'
  let body := if minus then t.drop 1 else t
  let digits := if body.head? = some '0' then ['0'] else digitsOf body
  if digits = [] then .error .decode
  else
    let more := fraction (body.drop digits.length)
    let more := more ++ exponent (body.drop (digits.length + more.length))
    let rest := body.drop (digits.length + more.length)
    if more ≠ [] then .ok (.float ((if minus then ['-'] else []) ++ digits ++ more), rest)
    else if 4300 < digits.length then .error .value
    else
      let magnitude : Int := Nat.ofDigitChars 10 digits 0
      .ok (.int (if minus then -magnitude else magnitude), rest)

end Numbers

/-- `mapping[key] = value` -/
def assign (fields : List (PyStr × Value)) (key : PyStr) (value : Value) : List (PyStr × Value) :=
  if fields.any (·.1 = key) then
    fields.map fun field => if field.1 = key then (key, value) else field
  else fields ++ [(key, value)]

def literals : List (Text × Value) :=
  [("null".toList, .null), ("true".toList, .bool true), ("false".toList, .bool false),
    ("NaN".toList, .float "NaN".toList), ("Infinity".toList, .float "Infinity".toList),
    ("-Infinity".toList, .float "-Infinity".toList)]

section Parse

-- how deep the interpreter goes
variable (limit : Nat)

mutual

/-- A value, with so much fuel and at such a depth. -/
def parseValue : Nat → Nat → Text → Except LoadsError (Value × Text)
  | 0, _, _ => .error .decode
  | fuel + 1, depth, t =>
    match t with
    | '"' :: rest => do
      let (s, rest) ← parseString rest
      .ok (.str s, rest)
    | '{' :: rest =>
      if limit ≤ depth then .error .recursion
      else
        match skip rest with
        | '}' :: rest => .ok (.dict [], rest)
        | rest => do
          let (fields, rest) ← parseFields fuel (depth + 1) [] rest
          .ok (.dict fields, rest)
    | '[' :: rest =>
      if limit ≤ depth then .error .recursion
      else
        match skip rest with
        | ']' :: rest => .ok (.list [], rest)
        | rest => do
          let (items, rest) ← parseItems fuel (depth + 1) rest
          .ok (.list items, rest)
    | t =>
      match literals.find? fun entry => entry.1.isPrefixOf t with
      | some (name, value) => .ok (value, t.drop name.length)
      | none => parseNumber t

/-- The fields of an object, from a key on. -/
def parseFields : Nat → Nat → List (PyStr × Value) → Text →
    Except LoadsError (List (PyStr × Value) × Text)
  | 0, _, _, _ => .error .decode
  | fuel + 1, depth, fields, t => do
    let rest ← expect '"' t
    let (key, rest) ← parseString rest
    let rest ← expect ':' (skip rest)
    let (value, rest) ← parseValue fuel depth (skip rest)
    match skip rest with
    | [] => .error .decode
    | c :: rest =>
      if c = '}' then .ok (assign fields key value, rest)
      else if c = ',' then parseFields fuel depth (assign fields key value) (skip rest)
      else .error .decode

def parseItems : Nat → Nat → Text → Except LoadsError (List Value × Text)
  | 0, _, _ => .error .decode
  | fuel + 1, depth, t => do
    let (value, rest) ← parseValue fuel depth t
    match skip rest with
    | [] => .error .decode
    | c :: rest =>
      if c = ']' then .ok ([value], rest)
      else if c = ',' then do
        let (items, rest) ← parseItems fuel depth (skip rest)
        .ok (value :: items, rest)
      else .error .decode

end

/-- `json.loads` -/
def loads (t : Text) : Except LoadsError Value := do
  let (value, rest) ← parseValue limit (t.length + 1) 0 (skip t)
  if skip rest = [] then .ok value else .error .decode

end Parse

/-! ### Flat objects

An object whose keys and strings are plain, and whose other values are natural numbers, is read as
it was written. -/

section Flat

/-- A character that a string has as it is. -/
def plain (c : Char) : Bool := 32 ≤ c.toNat && c.toNat < 127 && c ≠ '"' && c ≠ '\\'

inductive Scalar where
  | str (text : Text)
  | nat (n : Nat)

namespace Scalar

def json : Scalar → Json
  | str text => .str (PyStr.ofText text)
  | nat n => .int n

def value : Scalar → Value
  | str text => .str (PyStr.ofText text)
  | nat n => .int n

def text : Scalar → Text
  | str text => '"' :: (text ++ ['"'])
  | nat n => Nat.toDigits 10 n

/-- Strings are plain and numbers not too long. -/
def Fits : Scalar → Prop
  | str text => ∀ c ∈ text, plain c = true
  | nat n => (Nat.toDigits 10 n).length ≤ 4300

end Scalar

theorem plain_iff {c : Char} :
    plain c = true ↔ 32 ≤ c.toNat ∧ c.toNat < 127 ∧ c ≠ '"' ∧ c ≠ '\\' := by
  simp [plain, and_assoc]

theorem stringFrom_plain {t rest : Text} (all : ∀ c ∈ t, plain c = true) :
    stringFrom (t ++ '"' :: rest) = .ok (PyStr.ofText t, rest) := by
  induction t with
  | nil => rfl
  | cons c t ih =>
    obtain ⟨low, -, quote, slash⟩ := plain_iff.mp (all c (List.mem_cons_self ..))
    rw [List.cons_append, stringFrom]
    · rw [if_neg (by simpa [slash] using low), ih fun d among => all d (List.mem_cons_of_mem _ among)]
      rfl
    · exact quote
    · intro _ _ _ _ _ same
      exact absurd same slash
    · intro _ _ same
      exact absurd same slash

theorem joinPairs_ofText (t : Text) : joinPairs (PyStr.ofText t) = PyStr.ofText t := by
  induction t with
  | nil => rfl
  | cons c t ih =>
    rw [PyStr.ofText, List.map_cons, joinPairs]
    · exact congrArg _ ih
    · intro _ _ _ same
      cases same

theorem parseString_plain {t rest : Text} (all : ∀ c ∈ t, plain c = true) :
    parseString (t ++ '"' :: rest) = .ok (PyStr.ofText t, rest) := by
  rw [parseString, stringFrom_plain all, ok_bind]
  dsimp only
  rw [joinPairs_ofText]

theorem head_toDigits {n : Nat} (positive : 0 < n) : (Nat.toDigits 10 n).head? ≠ some '0' := by
  induction n using Nat.strongRecOn with
  | ind n ih =>
    by_cases small : n < 10
    · rw [Nat.toDigits_of_lt_base small]
      have digit : ∀ d < 10, 0 < d → ([d.digitChar].head? ≠ some '0') := by decide
      exact digit n small positive
    · rw [Nat.toDigits_of_base_le (by decide) (by omega),
        List.head?_append_of_ne_nil _ Nat.toDigits_ne_nil]
      exact ih (n / 10) (by omega) (by omega)

/-- What ends a value in a flat object. -/
def ender (c : Char) : Prop := c = ',' ∨ c = '}'

theorem parseNumber_nat {n : Nat} {c : Char} {rest : Text} (ends : ender c)
    (short : (Nat.toDigits 10 n).length ≤ 4300) :
    parseNumber (Nat.toDigits 10 n ++ c :: rest) = .ok (.int n, c :: rest) := by
  have digits : ∀ d ∈ Nat.toDigits 10 n, d.isDigit = true := fun d here =>
    Nat.isDigit_of_mem_toDigits (by decide) (by decide) here
  have outside : c.isDigit = false := by rcases ends with rfl | rfl <;> rfl
  have unsigned : (Nat.toDigits 10 n ++ c :: rest).head? ≠ some '-' := by
    rw [List.head?_append_of_ne_nil _ Nat.toDigits_ne_nil]
    intro same
    exact absurd (digits _ (List.mem_of_mem_head? same)) (by decide)
  have whole : digitsOf (Nat.toDigits 10 n ++ c :: rest) = Nat.toDigits 10 n := by
    rw [digitsOf, List.takeWhile_append_of_pos digits,
      List.takeWhile_cons_of_neg (by simp [outside]), List.append_nil]
  have found : (if (Nat.toDigits 10 n ++ c :: rest).head? = some '0' then ['0']
      else digitsOf (Nat.toDigits 10 n ++ c :: rest)) = Nat.toDigits 10 n := by
    rcases Nat.eq_zero_or_pos n with rfl | positive
    · rw [Nat.toDigits_zero]
      rfl
    · rw [List.head?_append_of_ne_nil _ Nat.toDigits_ne_nil, if_neg (head_toDigits positive), whole]
  have noFraction : fraction (c :: rest) = [] := by rcases ends with rfl | rfl <;> rfl
  have noExponent : exponent (c :: rest) = [] := by
    rcases ends with rfl | rfl <;> simp [exponent]
  simp only [parseNumber, unsigned, if_false, found, Nat.toDigits_ne_nil, List.drop_left, noFraction,
    List.length_nil, Nat.add_zero, noExponent, List.append_nil, ne_eq, not_true_eq_false, Nat.not_lt.mpr short, Nat.ofDigitChars_ten_toDigits]

theorem skip_cons {c : Char} {rest : Text} (solid : blank c = false) :
    skip (c :: rest) = c :: rest := List.dropWhile_cons_of_neg (by simp [solid])

theorem ender_solid {c : Char} (ends : ender c) : blank c = false := by
  rcases ends with rfl | rfl <;> rfl

variable {limit : Nat}

theorem parseValue_scalar {fuel depth : Nat} {scalar : Scalar} {c : Char} {rest : Text}
    (ends : ender c) (fits : scalar.Fits) :
    parseValue limit (fuel + 1) depth (scalar.text ++ c :: rest) =
      .ok (scalar.value, c :: rest) := by
  cases scalar with
  | str t =>
    have text : (Scalar.str t).text ++ c :: rest = '"' :: (t ++ '"' :: (c :: rest)) := by
      simp [Scalar.text]
    rw [text, parseValue, parseString_plain fits]
    rfl
  | nat n =>
    obtain ⟨d, ds, same⟩ := List.exists_cons_of_ne_nil (Nat.toDigits_ne_nil (n := n) (b := 10))
    have digit : d.isDigit = true :=
      Nat.isDigit_of_mem_toDigits (by decide) (by decide) (same ▸ List.mem_cons_self ..)
    have other : ∀ e : Char, e.isDigit = false → d ≠ e := by
      rintro e outside rfl
      rw [digit] at outside
      cases outside
    have number := @parseNumber_nat n c rest ends fits
    have unnamed : (literals.find? fun entry =>
        entry.1.isPrefixOf (Nat.toDigits 10 n ++ c :: rest)) = none := by
      rw [same, List.cons_append]
      simp [literals, (other 'n' rfl).symm, (other 't' rfl).symm, (other 'f' rfl).symm,
        (other 'N' rfl).symm, (other 'I' rfl).symm, (other '-' rfl).symm]
    rw [Scalar.text, Scalar.value]
    rw [same, List.cons_append] at number unnamed ⊢
    rw [parseValue]
    · rw [unnamed]
      exact number
    all_goals
      intro _ same
      exact absurd (List.cons.inj same).1 (other _ (by decide))

/-- A field as it is written, up to its opening quote. -/
def fieldText (field : Text × Scalar) : Text :=
  field.1 ++ '"' :: ':' :: field.2.text

/-- The fields as they are written, after the quote that opens the first. -/
def fieldsText : List (Text × Scalar) → Text
  | [] => []
  | [field] => fieldText field
  | field :: rest => fieldText field ++ ',' :: '"' :: fieldsText rest

def fieldValues (fields : List (Text × Scalar)) : List (PyStr × Value) :=
  fields.map fun field => (PyStr.ofText field.1, field.2.value)

def FieldFits (field : Text × Scalar) : Prop := (∀ c ∈ field.1, plain c = true) ∧ field.2.Fits

theorem assign_fresh {fields : List (PyStr × Value)} {key : PyStr} {value : Value}
    (fresh : key ∉ fields.map (·.1)) : assign fields key value = fields ++ [(key, value)] := by
  rw [assign, if_neg]
  simpa using fresh

theorem skip_scalar {scalar : Scalar} {rest : Text} :
    skip (scalar.text ++ rest) = scalar.text ++ rest := by
  cases scalar with
  | str t => exact skip_cons rfl
  | nat n =>
    obtain ⟨d, ds, same⟩ := List.exists_cons_of_ne_nil (Nat.toDigits_ne_nil (n := n) (b := 10))
    have digit : d.isDigit = true :=
      Nat.isDigit_of_mem_toDigits (by decide) (by decide) (same ▸ List.mem_cons_self ..)
    have solid : blank d = false := by
      by_contra hidden
      simp only [blank, Bool.not_eq_false, Bool.or_eq_true, decide_eq_true_eq] at hidden
      rcases hidden with ((rfl | rfl) | rfl) | rfl <;> cases digit
    rw [Scalar.text, same]
    exact skip_cons solid

/-- The key and the value of a field, up to what ends it. -/
theorem parseFields_cons {fuel depth : Nat} {field : Text × Scalar} {c : Char}
    {earlier : List (PyStr × Value)} {rest : Text} (ends : ender c) (fits : FieldFits field)
    (fresh : PyStr.ofText field.1 ∉ earlier.map (·.1)) :
    parseFields limit (fuel + 2) depth earlier ('"' :: (fieldText field ++ c :: rest)) =
      if c = '}' then .ok (earlier ++ fieldValues [field], rest)
      else parseFields limit (fuel + 1) depth (earlier ++ fieldValues [field]) (skip rest) := by
  obtain ⟨key, scalar⟩ := field
  have text : fieldText (key, scalar) ++ c :: rest =
      key ++ '"' :: (':' :: (scalar.text ++ c :: rest)) := by
    simp [fieldText]
  rw [text, parseFields, expect, if_pos rfl, ok_bind, parseString_plain fits.1, ok_bind]
  dsimp only
  rw [skip_cons (by rfl), expect, if_pos rfl, ok_bind, skip_scalar, parseValue_scalar ends fits.2,
    ok_bind]
  dsimp only
  rw [skip_cons (ender_solid ends), assign_fresh fresh]
  rcases ends with rfl | rfl <;> rfl

theorem parseFields_flat {fuel depth : Nat} {fields : List (Text × Scalar)}
    {earlier : List (PyStr × Value)} {rest : Text} (some : fields ≠ [])
    (enough : fields.length < fuel) (fits : ∀ field ∈ fields, FieldFits field)
    (distinct : (earlier.map (·.1) ++ (fieldValues fields).map (·.1)).Nodup) :
    parseFields limit fuel depth earlier ('"' :: (fieldsText fields ++ '}' :: rest)) =
      .ok (earlier ++ fieldValues fields, rest) := by
  induction fields generalizing fuel earlier with
  | nil => exact absurd rfl some
  | cons field others ih =>
    obtain ⟨fuel, rfl⟩ : ∃ more, fuel = more + 2 := ⟨fuel - 2, by
      simp only [List.length_cons] at enough
      omega⟩
    have fresh : PyStr.ofText field.1 ∉ earlier.map (·.1) := fun here =>
      (List.nodup_append.mp distinct).2.2 _ here _ (List.mem_cons_self ..) rfl
    cases others with
    | nil =>
      rw [fieldsText, parseFields_cons (.inr rfl) (fits field (List.mem_cons_self ..)) fresh,
        if_pos rfl]
    | cons next others =>
      have text : fieldsText (field :: next :: others) ++ '}' :: rest =
          fieldText field ++ ',' :: ('"' :: (fieldsText (next :: others) ++ '}' :: rest)) := by
        simp [fieldsText]
      rw [text, parseFields_cons (.inl rfl) (fits field (List.mem_cons_self ..)) fresh,
        if_neg (by decide), skip_cons (by rfl), ih (by simp)]
      · rw [List.append_assoc]
        rfl
      · simp only [List.length_cons] at enough ⊢
        omega
      · exact fun other here => fits other (List.mem_cons_of_mem _ here)
      · rw [List.map_append, List.append_assoc]
        exact distinct

def flatText (fields : List (Text × Scalar)) : Text := '{' :: '"' :: (fieldsText fields ++ ['}'])

theorem length_fieldsText {fields : List (Text × Scalar)} :
    fields.length ≤ (fieldsText fields).length := by
  induction fields with
  | nil => exact Nat.zero_le _
  | cons field others ih =>
    cases others with
    | nil => simp [fieldsText, fieldText]; omega
    | cons next others =>
      simp only [fieldsText, List.length_append, List.length_cons] at ih ⊢
      omega

/-- A flat object is read as it was written. -/
theorem loads_flat {fields : List (Text × Scalar)} (shallow : 0 < limit) (some : fields ≠ [])
    (fits : ∀ field ∈ fields, FieldFits field) (distinct : (fields.map (·.1)).Nodup) :
    loads limit (flatText fields) = .ok (.dict (fieldValues fields)) := by
  have keys : ((fieldValues fields).map (·.1)).Nodup := by
    have inj : Function.Injective PyStr.ofText :=
      List.map_injective_iff.mpr fun _ _ same => CodePoint.scalar.inj same
    rw [fieldValues, List.map_map]
    simpa [Function.comp_def] using distinct.map inj
  rw [loads, flatText, skip_cons (by rfl), parseValue, if_neg (by omega), skip_cons (by rfl)]
  change (do
    let result ← (do
      let read ← parseFields limit ('{' :: '"' :: (fieldsText fields ++ ['}'])).length (0 + 1) []
        ('"' :: (fieldsText fields ++ ['}']))
      .ok (Value.dict read.1, read.2))
    if skip result.2 = [] then .ok result.1 else .error .decode) = _
  rw [parseFields_flat some _ fits (by simpa using keys), ok_bind]
  · rfl
  · have := @length_fieldsText fields
    simp only [List.length_cons, List.length_append]
    omega

/-! ### Flat objects as they are written -/

def printable (c : Char) : Bool := 32 ≤ c.toNat && c.toNat < 127

theorem asciiEscape_printable {t : Text} (all : ∀ c ∈ t, printable c = true) :
    (PyStr.ofText t).flatMap Json.asciiEscape = t := by
  induction t with
  | nil => rfl
  | cons c t ih =>
    have here := all c (List.mem_cons_self ..)
    simp only [printable, Bool.and_eq_true, decide_eq_true_eq] at here
    have whole : Json.asciiEscape (.scalar c) = [c] := by
      rw [Json.asciiEscape, CodePoint.value, if_pos here, Char.ofNat_toNat]
    rw [PyStr.ofText, List.map_cons, List.flatMap_cons, whole]
    exact congrArg _ (ih fun d among => all d (List.mem_cons_of_mem _ among))

theorem escape_plain {c : Char} (h : plain c = true) : Json.escape (.scalar c) = [.scalar c] := by
  obtain ⟨low, high, quote, slash⟩ := plain_iff.mp h
  have other : ∀ d : Char, d.toNat < 32 → CodePoint.scalar c ≠ .scalar d := by
    intro d small same
    rw [CodePoint.scalar.inj same] at low
    omega
  rw [Json.escape, if_neg (by simpa using quote), if_neg (by simpa using slash),
    if_neg (other _ (by decide)), if_neg (other _ (by decide)), if_neg (other _ (by decide)),
    if_neg (other _ (by decide)), if_neg (other _ (by decide)), CodePoint.value,
    if_neg (by omega)]

theorem quote_plain {t : Text} (all : ∀ c ∈ t, plain c = true) :
    Json.quote (PyStr.ofText t) = PyStr.ofText ('"' :: (t ++ ['"'])) := by
  have inside : (PyStr.ofText t).flatMap Json.escape = PyStr.ofText t := by
    induction t with
    | nil => rfl
    | cons c t ih =>
      rw [PyStr.ofText, List.map_cons, List.flatMap_cons, escape_plain (all c (List.mem_cons_self ..))]
      exact congrArg _ (ih fun d among => all d (List.mem_cons_of_mem _ among))
  rw [Json.quote, inside]
  simp [PyStr.lit, PyStr.ofText]

theorem dumps_scalar {scalar : Scalar} (fits : scalar.Fits) :
    Json.dumps scalar.json = PyStr.ofText scalar.text := by
  cases scalar with
  | str t => exact quote_plain fits
  | nat n => rfl

theorem dumpsFields_eq (fields : List (PyStr × Json)) :
    Json.dumpsFields fields = fields.map fun field => (field.1, Json.dumps field.2) := by
  induction fields with
  | nil => rfl
  | cons field fields ih => rw [Json.dumpsFields, ih, List.map_cons]

theorem dumps_field {field : Text × Scalar} (fits : FieldFits field) :
    Json.quote (PyStr.ofText field.1) ++ PyStr.lit ":" ++ Json.dumps field.2.json =
      PyStr.ofText ('"' :: fieldText field) := by
  rw [quote_plain fits.1, dumps_scalar fits.2]
  simp [PyStr.lit, PyStr.ofText, fieldText]

theorem join_fields (field : Text × Scalar) (fields : List (Text × Scalar)) :
    PyStr.join (PyStr.lit ",") ((field :: fields).map fun field =>
      PyStr.ofText ('"' :: fieldText field)) = PyStr.ofText ('"' :: fieldsText (field :: fields)) := by
  induction fields generalizing field with
  | nil => simp [PyStr.join, fieldsText]
  | cons next fields ih =>
    have step := ih next
    rw [List.map_cons, PyStr.join] at step ⊢
    rw [List.map_cons, List.intercalate_cons_cons, step]
    simp [PyStr.lit, PyStr.ofText, fieldsText]

theorem printable_of_plain {c : Char} (h : plain c = true) : printable c = true := by
  obtain ⟨low, high, -⟩ := plain_iff.mp h
  simp [printable, low, high]

theorem printable_field {field : Text × Scalar} (fits : FieldFits field) :
    ∀ c ∈ fieldText field, printable c = true := by
  obtain ⟨key, scalar⟩ := field
  have value : ∀ c ∈ scalar.text, printable c = true := by
    cases scalar with
    | str t =>
      intro c here
      simp only [Scalar.text, List.mem_cons, List.mem_append, List.not_mem_nil, or_false] at here
      rcases here with rfl | here | rfl
      · rfl
      · exact printable_of_plain (fits.2 c here)
      · rfl
    | nat n =>
      intro c here
      have digit := Nat.isDigit_of_mem_toDigits (by decide) (by decide) here
      simp only [Char.isDigit, Bool.and_eq_true, decide_eq_true_eq] at digit
      have low : 48 ≤ c.toNat := digit.1
      have high : c.toNat ≤ 57 := digit.2
      simp only [printable, Bool.and_eq_true, decide_eq_true_eq]
      omega
  intro c here
  simp only [fieldText, List.mem_append, List.mem_cons] at here
  rcases here with here | rfl | rfl | here
  · exact printable_of_plain (fits.1 c here)
  · rfl
  · rfl
  · exact value c here

theorem printable_fields {fields : List (Text × Scalar)} (fits : ∀ field ∈ fields, FieldFits field) :
    ∀ c ∈ fieldsText fields, printable c = true := by
  induction fields with
  | nil => simp [fieldsText]
  | cons field others ih =>
    have first := printable_field (fits field (List.mem_cons_self ..))
    have later := ih fun other among => fits other (List.mem_cons_of_mem _ among)
    cases others with
    | nil => exact first
    | cons next others =>
      intro c here
      simp only [fieldsText, List.mem_append, List.mem_cons] at here later
      rcases here with here | rfl | rfl | here
      · exact first c here
      · rfl
      · rfl
      · exact later c here

/-- The keys are in their order. -/
theorem dumpsAscii_flat {fields : List (Text × Scalar)} (some : fields ≠ [])
    (fits : ∀ field ∈ fields, FieldFits field)
    (ordered : fields.Pairwise fun a b => PyStr.ofText a.1 ≤ PyStr.ofText b.1) :
    Json.dumpsAscii (.dict (fields.map fun field => (PyStr.ofText field.1, field.2.json))) =
      flatText fields := by
  have sorted : ((fields.map fun field => (PyStr.ofText field.1, field.2.json)).map
      fun field => (field.1, Json.dumps field.2)).Pairwise fun a b => a.1 ≤ b.1 := by
    rw [List.map_map, List.pairwise_map]
    exact ordered
  have each : ((fields.map fun field => (PyStr.ofText field.1, field.2.json)).map
      fun field => (field.1, Json.dumps field.2)).map
        (fun field => Json.quote field.1 ++ PyStr.lit ":" ++ field.2) =
      fields.map fun field => PyStr.ofText ('"' :: fieldText field) := by
    rw [List.map_map, List.map_map]
    exact List.map_congr_left fun field here => dumps_field (fits field here)
  have whole : Json.dumps (.dict (fields.map fun field => (PyStr.ofText field.1, field.2.json))) =
      PyStr.ofText (flatText fields) := by
    obtain ⟨field, others, rfl⟩ := List.exists_cons_of_ne_nil some
    rw [Json.dumps, dumpsFields_eq, sorted.insertionSort_eq, each, join_fields]
    simp [PyStr.lit, PyStr.ofText, flatText]
  rw [Json.dumpsAscii, whole, asciiEscape_printable]
  intro c here
  simp only [flatText, List.mem_cons, List.mem_append, List.not_mem_nil, or_false] at here
  rcases here with rfl | rfl | here | rfl
  · rfl
  · rfl
  · exact printable_fields fits c here
  · rfl

end Flat

end RepoForge.JsonLoads
