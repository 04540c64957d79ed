import Mathlib.Data.List.DropRight
import RepoForge.Library.PyText

/-!
# Base64

`base64.urlsafe_b64encode` and `base64.urlsafe_b64decode`. The decoder is the lenient one: it skips
what is not in the alphabet, takes `+` and `/` beside `-` and `_`, and ends at the padding of a
group of four.
-/
namespace RepoForge.Base64

/-- The digit of so much. -/
def digit (n : Nat) : Char :=
  if n < 26 then Char.ofNat (65 + n) else if n < 52 then Char.ofNat (71 + n)
  else if n < 62 then Char.ofNat (n - 4) else if n = 62 then '-' else '_'

def value (c : Char) : Option Nat :=
  if c.isUpper then some (c.toNat - 65) else if c.isLower then some (c.toNat - 71)
  else if c.isDigit then some (c.toNat + 4) else if c = '-' ∨ c = '+' then some 62
  else if c = '_' ∨ c = '/' then some 63 else none

/-- `urlsafe_b64encode` -/
def encode : Bytes → Text
  | a :: b :: c :: rest =>
    [digit (a.toNat / 4), digit (a.toNat % 4 * 16 + b.toNat / 16),
      digit (b.toNat % 16 * 4 + c.toNat / 64), digit (c.toNat % 64)] ++ encode rest
  | [a, b] => [digit (a.toNat / 4), digit (a.toNat % 4 * 16 + b.toNat / 16),
      digit (b.toNat % 16 * 4), '=']
  | [a] => [digit (a.toNat / 4), digit (a.toNat % 4 * 16), '=', '=']
  | [] => []

/-- The loop of `a2b_base64`: the place in the group of four, the bits that are left over and the
padding seen in the group. -/
def decodeFrom : Nat → Nat → Nat → Text → Option Bytes
  | place, _, _, [] => if place = 0 then some [] else none
  | place, left, pads, c :: rest =>
    if c = '=' then
      if 2 ≤ place then
        if 4 ≤ place + (pads + 1) then some [] else decodeFrom place left (pads + 1) rest
      else decodeFrom place left pads rest
    else
      match value c with
      | none => decodeFrom place left pads rest
      | some v =>
        match place with
        | 0 => decodeFrom 1 v 0 rest
        | 1 => (decodeFrom 2 (v % 16) 0 rest).map (UInt8.ofNat (left * 4 + v / 16) :: ·)
        | 2 => (decodeFrom 3 (v % 4) 0 rest).map (UInt8.ofNat (left * 16 + v / 4) :: ·)
        | _ => (decodeFrom 0 0 0 rest).map (UInt8.ofNat (left * 64 + v) :: ·)

/-- `urlsafe_b64decode`; `none` where it raises `ValueError`. -/
def decode (t : Text) : Option Bytes :=
  if t.all fun c => c.toNat < 128 then decodeFrom 0 0 0 t else none

/-- `rstrip("=")` -/
def unpadded (t : Text) : Text := t.rdropWhile (· = '=')

/-- `t + "=" * (-len(t) % 4)` -/
def padded (t : Text) : Text := t ++ List.replicate ((4 - t.length % 4) % 4) '='

/-- A letter, a digit, `-` or `_`. -/
def inAlphabet (c : Char) : Bool := c.isAlphanum || c = '-' || c = '_'

theorem digits : ∀ n < 64,
    value (digit n) = some n ∧ digit n ≠ '=' ∧ inAlphabet (digit n) = true := by
  decide +kernel

theorem value_digit {n : Nat} (small : n < 64) : value (digit n) = some n := (digits n small).1

theorem digit_ne_pad {n : Nat} (small : n < 64) : digit n ≠ '=' := (digits n small).2.1

theorem digit_inAlphabet {n : Nat} (small : n < 64) : inAlphabet (digit n) = true :=
  (digits n small).2.2

section Step

variable {n left pads : Nat} {rest : Text}

theorem decodeFrom_first (small : n < 64) :
    decodeFrom 0 left pads (digit n :: rest) = decodeFrom 1 n 0 rest := by
  change (if digit n = '=' then _ else _) = _
  rw [if_neg (digit_ne_pad small), value_digit small]
  rfl

theorem decodeFrom_second (small : n < 64) : decodeFrom 1 left pads (digit n :: rest) =
    (decodeFrom 2 (n % 16) 0 rest).map (UInt8.ofNat (left * 4 + n / 16) :: ·) := by
  change (if digit n = '=' then _ else _) = _
  rw [if_neg (digit_ne_pad small), value_digit small]
  rfl

theorem decodeFrom_third (small : n < 64) : decodeFrom 2 left pads (digit n :: rest) =
    (decodeFrom 3 (n % 4) 0 rest).map (UInt8.ofNat (left * 16 + n / 4) :: ·) := by
  change (if digit n = '=' then _ else _) = _
  rw [if_neg (digit_ne_pad small), value_digit small]
  rfl

theorem decodeFrom_fourth (small : n < 64) : decodeFrom 3 left pads (digit n :: rest) =
    (decodeFrom 0 0 0 rest).map (UInt8.ofNat (left * 64 + n) :: ·) := by
  change (if digit n = '=' then _ else _) = _
  rw [if_neg (digit_ne_pad small), value_digit small]
  rfl

end Step

theorem ofNat_eq {b : UInt8} {n : Nat} (same : n = b.toNat) : UInt8.ofNat n = b := by
  rw [same, UInt8.ofNat_toNat]

theorem decodeFrom_encode (data : Bytes) (pads : Nat) :
    decodeFrom 0 0 pads (encode data) = some data := by
  induction data using encode.induct generalizing pads with
  | case1 a b c rest ih =>
    have ha := a.toNat_lt
    have hb := b.toNat_lt
    have hc := c.toNat_lt
    rw [encode, List.cons_append, List.cons_append, List.cons_append, List.cons_append,
      List.nil_append, decodeFrom_first (by omega), decodeFrom_second (by omega),
      decodeFrom_third (by omega), decodeFrom_fourth (by omega), ih, ofNat_eq (b := a) (by omega),
      ofNat_eq (b := b) (by omega), ofNat_eq (b := c) (by omega)]
    rfl
  | case2 a b =>
    have ha := a.toNat_lt
    have hb := b.toNat_lt
    rw [encode, decodeFrom_first (by omega), decodeFrom_second (by omega),
      decodeFrom_third (by omega), ofNat_eq (b := a) (by omega), ofNat_eq (b := b) (by omega)]
    rfl
  | case3 a =>
    have ha := a.toNat_lt
    rw [encode, decodeFrom_first (by omega), decodeFrom_second (by omega),
      ofNat_eq (b := a) (by omega)]
    rfl
  | case4 => rfl

/-- Digits, then the padding to a multiple of four. -/
theorem encode_shape (data : Bytes) : ∃ (digits : Text) (pads : Nat),
    encode data = digits ++ List.replicate pads '=' ∧ (∀ c ∈ digits, c ≠ '=' ∧ inAlphabet c = true) ∧
      pads < 4 ∧ (digits.length + pads) % 4 = 0 ∧
      digits.length + pads = (data.length + 2) / 3 * 4 := by
  have plain : ∀ {n : Nat}, n < 64 → digit n ≠ '=' ∧ inAlphabet (digit n) = true :=
    fun small => ⟨digit_ne_pad small, digit_inAlphabet small⟩
  induction data using encode.induct with
  | case1 a b c rest ih =>
    have ha := a.toNat_lt
    have hb := b.toNat_lt
    have hc := c.toNat_lt
    obtain ⟨digits, pads, same, all, few, whole, size⟩ := ih
    refine ⟨_ ++ digits, pads, by rw [encode, same, List.append_assoc], ?_, few, ?_, ?_⟩
    · intro c here
      simp only [List.cons_append, List.nil_append, List.mem_cons] at here
      rcases here with rfl | rfl | rfl | rfl | here
      · exact plain (by omega)
      · exact plain (by omega)
      · exact plain (by omega)
      · exact plain (by omega)
      · exact all c here
    · simp only [List.length_append, List.length_cons, List.length_nil]
      omega
    · simp only [List.length_append, List.length_cons, List.length_nil]
      omega
  | case2 a b =>
    have ha := a.toNat_lt
    have hb := b.toNat_lt
    refine ⟨[_, _, _], 1, by rw [encode]; rfl, ?_, by decide, by simp, by simp⟩
    intro c here
    simp only [List.mem_cons, List.not_mem_nil, or_false] at here
    rcases here with rfl | rfl | rfl
    · exact plain (by omega)
    · exact plain (by omega)
    · exact plain (by omega)
  | case3 a =>
    have ha := a.toNat_lt
    refine ⟨[_, _], 2, by rw [encode]; rfl, ?_, by decide, by simp, by simp⟩
    intro c here
    simp only [List.mem_cons, List.not_mem_nil, or_false] at here
    rcases here with rfl | rfl
    · exact plain (by omega)
    · exact plain (by omega)
  | case4 => exact ⟨[], 0, rfl, by simp, by decide, by decide, by decide⟩

theorem rdropWhile_replicate (digits : Text) (pads : Nat) :
    (digits ++ List.replicate pads '=').rdropWhile (· = '=') = digits.rdropWhile (· = '=') := by
  induction pads with
  | zero => simp
  | succ pads ih =>
    rw [List.replicate_succ', ← List.append_assoc, List.rdropWhile_concat_pos _ _ _ (by simp), ih]

theorem unpadded_shape (data : Bytes) : ∃ pads, encode data =
      unpadded (encode data) ++ List.replicate pads '=' ∧ pads < 4 ∧
      ((unpadded (encode data)).length + pads) % 4 = 0 ∧
      ∀ c ∈ unpadded (encode data), c ≠ '=' ∧ inAlphabet c = true := by
  obtain ⟨digits, pads, same, all, few, whole, -⟩ := encode_shape data
  have stripped : unpadded (encode data) = digits := by
    rw [same, unpadded, rdropWhile_replicate, List.rdropWhile_eq_self_iff]
    intro filled
    simpa using (all _ (List.getLast_mem filled)).1
  rw [stripped]
  exact ⟨pads, same, few, whole, all⟩

/-- The padding that was stripped comes back. -/
theorem padded_unpadded (data : Bytes) : padded (unpadded (encode data)) = encode data := by
  obtain ⟨pads, same, few, whole, -⟩ := unpadded_shape data
  have count : (4 - (unpadded (encode data)).length % 4) % 4 = pads := by omega
  rw [padded, count, ← same]

theorem mem_unpadded {data : Bytes} {c : Char} (here : c ∈ unpadded (encode data)) :
    inAlphabet c = true := by
  obtain ⟨-, -, -, -, all⟩ := unpadded_shape data
  exact (all c here).2

theorem ranges_of_inAlphabet {c : Char} (h : inAlphabet c = true) :
    ((('A'.val ≤ c.val ∧ c.val ≤ 'Z'.val ∨ 'a'.val ≤ c.val ∧ c.val ≤ 'z'.val) ∨
      '0'.val ≤ c.val ∧ c.val ≤ '9'.val) ∨ c = '-') ∨ c = '_' := by
  unfold inAlphabet at h
  delta Char.isAlphanum Char.isAlpha Char.isUpper Char.isLower Char.isDigit at h
  simpa only [Bool.or_eq_true, Bool.and_eq_true, decide_eq_true_eq] using h

theorem inAlphabet_ascii {c : Char} (h : inAlphabet c = true) : c.toNat < 128 := by
  rcases ranges_of_inAlphabet h with (((⟨-, high⟩ | ⟨-, high⟩) | ⟨-, high⟩) | rfl) | rfl
  · exact Nat.lt_of_le_of_lt (show c.toNat ≤ 90 from high) (by decide)
  · exact Nat.lt_of_le_of_lt (show c.toNat ≤ 122 from high) (by decide)
  · exact Nat.lt_of_le_of_lt (show c.toNat ≤ 57 from high) (by decide)
  · decide
  · decide

theorem encode_ascii (data : Bytes) : ∀ c ∈ encode data, c.toNat < 128 := by
  obtain ⟨pads, same, -⟩ := unpadded_shape data
  intro c here
  rw [same, List.mem_append, List.mem_replicate] at here
  rcases here with here | ⟨-, rfl⟩
  · exact inAlphabet_ascii (mem_unpadded here)
  · decide

theorem decode_padded (data : Bytes) : decode (padded (unpadded (encode data))) = some data := by
  have ascii : ((encode data).all fun c => c.toNat < 128) = true := by
    simpa using encode_ascii data
  rw [padded_unpadded, decode, if_pos ascii, decodeFrom_encode]

theorem length_unpadded_le (data : Bytes) :
    (unpadded (encode data)).length ≤ (data.length + 2) / 3 * 4 := by
  obtain ⟨digits, pads, same, -, -, -, size⟩ := encode_shape data
  have shorter : (unpadded (encode data)).length ≤ (encode data).length :=
    (List.rdropWhile_prefix _ _).length_le
  have whole : (encode data).length = digits.length + pads := by rw [same]; simp
  omega

end RepoForge.Base64
