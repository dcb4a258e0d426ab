import ComponentHooks.Proofs.Json.Grammar
import ComponentHooks.Proofs.Settings.Decimal
import Mathlib.Data.List.Forall2

/-!
# Texts without blanks

Objects are written with the entries that are there, strings without backslashes and numbers without
zeros in front.

* `Json.quoted`, `Json.objectText`, `Json.numberText`, `Json.optionalText`: the texts;
* `Json.plainPieces`, `Json.objectTree`, `Json.numberTree`, `Json.optionalTree`: their trees;
* **`Json.objectText_writes`**, `Json.valueText_quoted`, `Json.valueText_numberTree`: each text
  writes its tree.
-/

namespace ComponentHooks.Json

/-! ## Objects -/

/-- A string of plain characters, between quotes. -/
def quoted (text : String) : List Char := '"' :: (text.toList ++ ['"'])

/-- The tree of a string of plain characters. -/
def plainPieces (text : String) : List Piece := text.toList.map .char

/-- The entries that are there. -/
def written {α : Type} (es : List (String × Option α)) : List (String × α) :=
  es.filterMap fun e => e.2.map (e.1, ·)

/-- Members with their values as they are written, and the closing brace. -/
def membersText : List (String × List Char) → List Char
  | [] => ['}']
  | [(k, cs)] => quoted k ++ ':' :: (cs ++ ['}'])
  | (k, cs) :: ms => quoted k ++ ':' :: (cs ++ ',' :: membersText ms)

/-- The text of an object with the entries that are there. -/
def objectText (ts : List (String × Option (List Char))) : List Char :=
  '{' :: membersText (written ts)

def membersTree (ms : List (String × Json)) : List (List Piece × Json) :=
  ms.map fun m => (plainPieces m.1, m.2)

/-- The tree of an object with the entries that are there. -/
def objectTree (es : List (String × Option Json)) : Json := .object (membersTree (written es))

/-- A member and its text. -/
inductive MemberText : String × Json → String × List Char → Prop where
  | mk (k : String) {v : Json} {cs : List Char} (plain : k.toList.all isPlain = true)
    (value : ValueText v cs) : MemberText (k, v) (k, cs)

/-- An entry and its text, if it is there. -/
inductive EntryText : String × Option Json → String × Option (List Char) → Prop where
  | mk (k : String) {v? : Option Json} {cs? : Option (List Char)}
    (plain : k.toList.all isPlain = true) (value : Option.Rel ValueText v? cs?) :
    EntryText (k, v?) (k, cs?)

theorem valueText_quoted {text : String} (h : text.toList.all isPlain = true) :
    ValueText (.string (plainPieces text)) (quoted text) :=
  .string (stringText_plain (List.all_eq_true.mp h))

theorem membersText_writes {ms : List (String × Json)} {ts : List (String × List Char)}
    (h : List.Forall₂ MemberText ms ts) (hne : ts ≠ []) :
    MembersText (membersTree ms) (membersText ts) := by
  induction h with
  | nil => exact absurd rfl hne
  | @cons m t ms ts hm hms ih =>
    obtain ⟨k, hplain, hvalue⟩ := hm
    have hname := stringText_plain (List.all_eq_true.mp hplain)
    cases hms with
    | nil => exact .last blanks_nil hname blanks_nil blanks_nil hvalue blanks_nil
    | cons hm' hms' =>
      exact .more blanks_nil hname blanks_nil blanks_nil hvalue blanks_nil (ih (by simp))

theorem forall₂_written {es : List (String × Option Json)} {ts : List (String × Option (List Char))}
    (h : List.Forall₂ EntryText es ts) : List.Forall₂ MemberText (written es) (written ts) := by
  induction h with
  | nil => exact .nil
  | @cons e t es ts he hes ih =>
    obtain ⟨k, hplain, hvalue⟩ := he
    cases hvalue with
    | none => exact ih
    | some h => exact .cons (.mk k hplain h) ih

/-- **An object's text writes its tree.** -/
theorem objectText_writes {es : List (String × Option Json)}
    {ts : List (String × Option (List Char))} (h : List.Forall₂ EntryText es ts) :
    ValueText (objectTree es) (objectText ts) := by
  have hmembers := forall₂_written h
  rw [objectTree, objectText]
  generalize written es = ms, written ts = ms' at hmembers
  cases hmembers with
  | nil => exact .emptyObject blanks_nil
  | cons hm hms => exact .object (membersText_writes (.cons hm hms) (by simp))

theorem decode?_map_char (cs : List Char) : decode? (cs.map .char) = some cs := by
  induction cs with
  | nil => rfl
  | cons c cs ih => rw [List.map_cons, decode?, ih, Option.map_some]

/-! ## Numbers -/

theorem toDigits_eq_zero_cons {n : Nat} {ds : List Char} (h : Nat.toDigits 10 n = '0' :: ds) :
    ds = [] := by
  induction n using Nat.strongRecOn generalizing ds with
  | ind n ih =>
    by_cases hlt : n < 10
    · rw [Nat.toDigits_of_lt_base hlt] at h
      exact (List.cons.inj h).2.symm
    · have hle : 10 ≤ n := Nat.le_of_not_lt hlt
      rw [Nat.toDigits_of_base_le (by decide) hle] at h
      cases hfront : Nat.toDigits 10 (n / 10) with
      | nil => exact absurd hfront Nat.toDigits_ne_nil
      | cons c cs =>
        rw [hfront] at h
        obtain ⟨rfl, -⟩ := List.cons.inj h
        -- The front would be the zero alone, and so the number without its last digit.
        have hnil : cs = [] := ih (n / 10) (by omega) hfront
        have hvalue := (Text.decimal_toDigits (n / 10)).value
        rw [hfront, hnil] at hvalue
        have hzero : n / 10 = 0 := hvalue.symm
        omega

theorem integerText_toDigits (n : Nat) : IntegerText (Nat.toDigits 10 n) :=
  ⟨⟨Nat.toDigits_ne_nil, (Text.decimal_toDigits n).digits⟩, fun _ => toDigits_eq_zero_cons⟩

def numberText (n : UInt64) : List Char := Nat.toDigits 10 n.toNat

def numberTree (n : UInt64) : Json := .number (numberText n)

theorem valueText_numberTree (n : UInt64) : ValueText (numberTree n) (numberText n) := by
  have h : UnsignedText (numberText n ++ ([] ++ [])) :=
    .mk (integerText_toDigits _) .none .none
  rw [List.append_nil, List.append_nil] at h
  exact .number (.positive h)

def optionalText (n? : Option UInt64) : List Char := (n?.map numberText).getD "null".toList

def optionalTree (n? : Option UInt64) : Json := (n?.map numberTree).getD .null

theorem valueText_optionalTree (n? : Option UInt64) :
    ValueText (optionalTree n?) (optionalText n?) := by
  cases n? with
  | none => exact .null
  | some n => exact valueText_numberTree n

end ComponentHooks.Json
