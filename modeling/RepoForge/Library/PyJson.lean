import Mathlib.Data.List.Dedup
import Mathlib.Data.List.Sort
import RepoForge.Library.PyStr

/-!
# JSON as Python writes it

`dumps` is `json.dumps(value, sort_keys=True, separators=(",", ":"), ensure_ascii=False)`; strings
are ordered by code points, and a string is encoded as UTF-8 unless it has a lone surrogate
(`dumps_encodable`). Numbers are integers.
-/
namespace RepoForge

theorem CodePoint.value_injective : Function.Injective CodePoint.value := by
  intro a b same
  cases a with
  | scalar c =>
    cases b with
    | scalar d => exact congrArg scalar (Char.toNat_inj.mp same)
    | surrogate n =>
      have bounds := c.valid
      have small := n.isLt
      simp only [value, Char.toNat] at same
      rcases bounds with low | high
      · have low : c.val.toNat < 0xD800 := low
        omega
      · have high : 0xDFFF < c.val.toNat := high.1
        omega
  | surrogate m =>
    cases b with
    | scalar d =>
      have bounds := d.valid
      have small := m.isLt
      simp only [value, Char.toNat] at same
      rcases bounds with low | high
      · have low : d.val.toNat < 0xD800 := low
        omega
      · have high : 0xDFFF < d.val.toNat := high.1
        omega
    | surrogate n =>
      simp only [value] at same
      exact congrArg surrogate (Fin.ext (by omega))

instance : LinearOrder CodePoint where
  le a b := a.value ≤ b.value
  lt a b := a.value < b.value
  le_refl a := Nat.le_refl a.value
  le_trans _ _ _ := Nat.le_trans
  lt_iff_le_not_ge _ _ := Nat.lt_iff_le_and_not_ge
  le_antisymm _ _ below above := CodePoint.value_injective (Nat.le_antisymm below above)
  le_total a b := Nat.le_total a.value b.value
  toDecidableLE a b := inferInstanceAs (Decidable (a.value ≤ b.value))
  toDecidableLT a b := inferInstanceAs (Decidable (a.value < b.value))

/-- `sorted(set(texts))` -/
def PyStr.sortedDistinct (texts : List PyStr) : List PyStr := texts.dedup.insertionSort (· ≤ ·)

theorem PyStr.sortedDistinct_eq_nil {items : List PyStr} : sortedDistinct items = [] ↔ items = [] := by
  rw [sortedDistinct, ← List.length_eq_zero_iff, List.length_insertionSort, List.length_eq_zero_iff,
    List.dedup_eq_nil]

theorem PyStr.mem_sortedDistinct {items : List PyStr} {item : PyStr} :
    item ∈ sortedDistinct items ↔ item ∈ items := by
  rw [sortedDistinct, List.mem_insertionSort, List.mem_dedup]

theorem PyStr.nodup_sortedDistinct {items : List PyStr} : (sortedDistinct items).Nodup :=
  ((List.perm_insertionSort _ _).nodup_iff).mpr (List.nodup_dedup items)

inductive Json where
  | null
  | bool (value : Bool)
  | int (value : Int)
  | str (value : PyStr)
  | list (items : List Json)
  | dict (fields : List (PyStr × Json))

namespace Json
open PyStr (lit join)

def optional : Option PyStr → Json
  | none => .null
  | some s => .str s

def texts (items : List PyStr) : Json := .list (items.map .str)

def hexDigits (n : Nat) : Text :=
  let digits := Nat.toDigits 16 n
  List.replicate (4 - digits.length) '0' ++ digits

/-- One code point inside a string. -/
def escape (c : CodePoint) : PyStr :=
  if c = .scalar '"' then lit "\\\""
  else if c = .scalar '\\' then lit "\\\\"
  else if c = .scalar '\n' then lit "\\n"
  else if c = .scalar '\r' then lit "\\r"
  else if c = .scalar '\t' then lit "\\t"
  else if c = .scalar '\x0c' then lit "\\f"
  else if c = .scalar '\x08' then lit "\\b"
  else if c.value < 32 then lit "\\u" ++ PyStr.ofText (hexDigits c.value)
  else [c]

def quote (s : PyStr) : PyStr := lit "\"" ++ s.flatMap escape ++ lit "\""

def ofInt : Int → PyStr
  | .ofNat n => PyStr.ofNat n
  | .negSucc n => lit "-" ++ PyStr.ofNat (n + 1)

mutual

def dumps : Json → PyStr
  | null => lit "null"
  | bool value => if value then lit "true" else lit "false"
  | int value => ofInt value
  | str value => quote value
  | list items => lit "[" ++ join (lit ",") (dumpsItems items) ++ lit "]"
  | dict fields =>
    let sorted := (dumpsFields fields).insertionSort fun a b => a.1 ≤ b.1
    lit "\x7b" ++ join (lit ",") (sorted.map fun field => quote field.1 ++ lit ":" ++ field.2) ++
      lit "\x7d"

def dumpsItems : List Json → List PyStr
  | [] => []
  | item :: rest => dumps item :: dumpsItems rest

def dumpsFields : List (PyStr × Json) → List (PyStr × PyStr)
  | [] => []
  | (key, value) :: rest => (key, dumps value) :: dumpsFields rest

end

/-- A code point as `ensure_ascii` writes it. -/
def asciiEscape (c : CodePoint) : Text :=
  let unit (n : Nat) : Text := "\\u".toList ++ hexDigits n
  if 32 ≤ c.value ∧ c.value < 127 then [Char.ofNat c.value]
  else if c.value < 0x10000 then unit c.value
  else
    -- the two halves of a surrogate pair
    unit (0xD800 + (c.value - 0x10000) / 0x400) ++ unit (0xDC00 + (c.value - 0x10000) % 0x400)

/-- `json.dumps(value, sort_keys=True, separators=(",", ":"))`: outside its strings, JSON has only
characters that are not escaped. -/
def dumpsAscii (value : Json) : Text := (dumps value).flatMap asciiEscape

mutual

/-- No string of it has a surrogate. -/
def clean : Json → Bool
  | null | bool _ | int _ => true
  | str value => value.encodable
  | list items => cleanItems items
  | dict fields => cleanFields fields

def cleanItems : List Json → Bool
  | [] => true
  | item :: rest => clean item && cleanItems rest

def cleanFields : List (PyStr × Json) → Bool
  | [] => true
  | (key, value) :: rest => key.encodable && clean value && cleanFields rest

end

mutual

/-- The keys of every object are listed in their order, none twice. -/
def canonical : Json → Bool
  | null | bool _ | int _ | str _ => true
  | list items => canonicalItems items
  | dict fields => decide ((fields.map (·.1)).Pairwise (· < ·)) && canonicalFields fields

def canonicalItems : List Json → Bool
  | [] => true
  | item :: rest => canonical item && canonicalItems rest

def canonicalFields : List (PyStr × Json) → Bool
  | [] => true
  | (_, value) :: rest => canonical value && canonicalFields rest

end

theorem canonicalItems_map {α : Type} {f : α → Json} {xs : List α} :
    canonicalItems (xs.map f) = true ↔ ∀ x ∈ xs, canonical (f x) = true := by
  induction xs with
  | nil => simp [canonicalItems]
  | cons x rest ih => simp [canonicalItems, ih]

theorem encodable_append {s t : PyStr} :
    (s ++ t).encodable = (s.encodable && t.encodable) := by
  simp [PyStr.encodable]

theorem encodable_lit (s : String) : (lit s).encodable = true := PyStr.ofText_encodable s.toList

theorem encodable_ofNat (n : Nat) : (PyStr.ofNat n).encodable = true := PyStr.ofText_encodable _

theorem encodable_escape (c : CodePoint) : (escape c).encodable = !c.isSurrogate := by
  cases c with
  | scalar c =>
    simp only [escape, CodePoint.isSurrogate, Bool.not_false]
    split_ifs
    all_goals first
      | exact encodable_lit _
      | rw [encodable_append, encodable_lit, PyStr.ofText_encodable, Bool.and_self]
      | rfl
  | surrogate n =>
    have high : ¬ (CodePoint.surrogate n).value < 32 := by
      simp only [CodePoint.value]
      omega
    simp [escape, high, PyStr.encodable]

theorem encodable_quote (s : PyStr) : (quote s).encodable = s.encodable := by
  have inside : PyStr.encodable (s.flatMap escape) = s.encodable := by
    induction s with
    | nil => rfl
    | cons c rest ih =>
      rw [List.flatMap_cons, encodable_append, ih, encodable_escape]
      simp [PyStr.encodable]
  simp [quote, encodable_append, encodable_lit, inside]

theorem encodable_join {separator : PyStr} (plain : separator.encodable = true)
    (parts : List PyStr) : (join separator parts).encodable = parts.all PyStr.encodable := by
  induction parts with
  | nil => simp [join, PyStr.encodable]
  | cons part rest ih =>
    cases rest with
    | nil => simp [join]
    | cons next rest =>
      rw [join, List.intercalate_cons_cons, ← join, encodable_append, encodable_append, ih, plain]
      simp

mutual

theorem dumps_encodable : (value : Json) → (dumps value).encodable = clean value
  | null => encodable_lit _
  | bool true => encodable_lit _
  | bool false => encodable_lit _
  | int (.ofNat n) => encodable_ofNat n
  | int (.negSucc n) => by
    simp [dumps, ofInt, clean, encodable_append, encodable_lit, encodable_ofNat]
  | str value => encodable_quote value
  | list items => by
    simp [dumps, clean, encodable_append, encodable_lit, encodable_join,
      dumpsItems_encodable items]
  | dict fields => by
    have sorted : ∀ pairs : List (PyStr × PyStr),
        ((pairs.insertionSort fun a b => a.1 ≤ b.1).map fun field =>
          quote field.1 ++ lit ":" ++ field.2).all PyStr.encodable =
          pairs.all fun field => field.1.encodable && field.2.encodable := by
      intro pairs
      rw [List.all_map, (List.perm_insertionSort _ pairs).all_eq]
      have each : (PyStr.encodable ∘ fun field : PyStr × PyStr =>
          quote field.1 ++ lit ":" ++ field.2) =
          fun field => field.1.encodable && field.2.encodable := by
        funext field
        rw [Function.comp_apply, encodable_append, encodable_append, encodable_quote,
          encodable_lit, Bool.and_true]
      rw [each]
    simp only [dumps, clean, encodable_append, encodable_lit, encodable_join, sorted,
      dumpsFields_encodable fields, Bool.and_true, Bool.true_and]

theorem dumpsItems_encodable : (items : List Json) →
    (dumpsItems items).all PyStr.encodable = cleanItems items
  | [] => rfl
  | item :: rest => by
    simp [dumpsItems, cleanItems, dumps_encodable item, dumpsItems_encodable rest]

theorem dumpsFields_encodable : (fields : List (PyStr × Json)) →
    ((dumpsFields fields).all fun field => field.1.encodable && field.2.encodable) =
      cleanFields fields
  | [] => rfl
  | (key, value) :: rest => by
    simp [dumpsFields, cleanFields, dumps_encodable value, dumpsFields_encodable rest]

end

theorem cleanItems_map {α : Type} {f : α → Json} {xs : List α} :
    cleanItems (xs.map f) = true ↔ ∀ x ∈ xs, clean (f x) = true := by
  induction xs with
  | nil => simp [cleanItems]
  | cons x rest ih => simp [cleanItems, ih]

theorem texts_clean {items : List PyStr} :
    (texts items).clean = true ↔ ∀ s ∈ items, s.encodable = true :=
  cleanItems_map

theorem optional_clean {item : Option PyStr} :
    (optional item).clean = true ↔ ∀ s ∈ item, s.encodable = true := by
  cases item <;> simp [optional, clean]

end Json

end RepoForge
