import ComponentHooks.Json
import Mathlib.Data.List.Basic

/-!
# The grammar of JSON texts

What the scanner reads is said without it: a grammar relates trees to the texts that write them,
with any blanks between tokens and any way to write the characters of a string.

* `Json.StringText`, `Json.NumberText`, `Json.ValueText`: the texts of strings, numbers and values;
* `Json.DocumentText`: a value with blanks around it;
* `Json.scanString_append`, `Json.scanNumber_append`: the scanner reads what the grammar writes;
* **`Json.scan_append`**: and so it does with values, given enough depth;
* **`Json.parse?_of_documentText`**: every text of the grammar has its tree.
-/

namespace ComponentHooks.Json

/-! ## The grammar -/

/-- Blanks between tokens. -/
def Blanks (cs : List Char) : Prop := ∀ c ∈ cs, isSpace c = true

theorem blanks_nil : Blanks [] := nofun

/-- At least one digit. -/
def DigitsText (cs : List Char) : Prop := cs ≠ [] ∧ ∀ c ∈ cs, c.isDigit = true

/-- One piece of a string: a character by itself or behind a backslash, or four hexadecimal
digits. -/
inductive PieceText : Piece → List Char → Prop where
  | plain {c : Char} (hquote : c ≠ '"') (hslash : c ≠ '\\') (hcontrol : 0x20 ≤ c.toNat) :
    PieceText (.char c) [c]
  | escaped {e c : Char} (h : escape? e = some c) : PieceText (.char c) ['\\', e]
  | unit {a b c d : Char} {i j k l : Nat} (ha : hexValue? a = some i) (hb : hexValue? b = some j)
    (hc : hexValue? c = some k) (hd : hexValue? d = some l) :
    PieceText (.unit (4096 * i + 256 * j + 16 * k + l)) ['\\', 'u', a, b, c, d]

/-- A string behind its opening quote, with the closing one. -/
inductive StringText : List Piece → List Char → Prop where
  | nil : StringText [] ['"']
  | cons {p : Piece} {ps : List Piece} {w cs : List Char} (hp : PieceText p w)
    (h : StringText ps cs) : StringText (p :: ps) (w ++ cs)

/-- The digits in front of a point: a zero stands alone. -/
def IntegerText (cs : List Char) : Prop := DigitsText cs ∧ ∀ ds, cs = '0' :: ds → ds = []

inductive FractionText : List Char → Prop where
  | none : FractionText []
  | some {ds : List Char} (h : DigitsText ds) : FractionText ('.' :: ds)

inductive ExponentText : List Char → Prop where
  | none : ExponentText []
  | some {e : Char} {sign ds : List Char} (he : e = 'e' ∨ e = 'E')
    (hsign : sign = [] ∨ sign = ['+'] ∨ sign = ['-']) (h : DigitsText ds) :
    ExponentText (e :: (sign ++ ds))

inductive UnsignedText : List Char → Prop where
  | mk {int frac exp : List Char} (hint : IntegerText int) (hfrac : FractionText frac)
    (hexp : ExponentText exp) : UnsignedText (int ++ (frac ++ exp))

inductive NumberText : List Char → Prop where
  | positive {cs : List Char} (h : UnsignedText cs) : NumberText cs
  | negative {cs : List Char} (h : UnsignedText cs) : NumberText ('-' :: cs)

mutual

/-- The texts of a value. -/
inductive ValueText : Json → List Char → Prop where
  | null : ValueText .null ['n', 'u', 'l', 'l']
  | boolTrue : ValueText (.bool true) ['t', 'r', 'u', 'e']
  | boolFalse : ValueText (.bool false) ['f', 'a', 'l', 's', 'e']
  | number {cs : List Char} (h : NumberText cs) : ValueText (.number cs) cs
  | string {ps : List Piece} {cs : List Char} (h : StringText ps cs) :
    ValueText (.string ps) ('"' :: cs)
  | emptyArray {b : List Char} (hb : Blanks b) : ValueText (.array []) ('[' :: (b ++ [']']))
  | array {vs : List Json} {cs : List Char} (h : ItemsText vs cs) :
    ValueText (.array vs) ('[' :: cs)
  | emptyObject {b : List Char} (hb : Blanks b) : ValueText (.object []) ('{' :: (b ++ ['}']))
  | object {ms : List (List Piece × Json)} {cs : List Char} (h : MembersText ms cs) :
    ValueText (.object ms) ('{' :: cs)

/-- At least one item, and the closing bracket. -/
inductive ItemsText : List Json → List Char → Prop where
  | last {v : Json} {b cs b' : List Char} (hb : Blanks b) (h : ValueText v cs) (hb' : Blanks b') :
    ItemsText [v] (b ++ (cs ++ (b' ++ [']'])))
  | more {v : Json} {vs : List Json} {b cs b' ds : List Char} (hb : Blanks b) (h : ValueText v cs)
    (hb' : Blanks b') (hs : ItemsText vs ds) : ItemsText (v :: vs) (b ++ (cs ++ (b' ++ ',' :: ds)))

/-- At least one member, and the closing brace. -/
inductive MembersText : List (List Piece × Json) → List Char → Prop where
  | last {k : List Piece} {v : Json} {ks cs : List Char} {b₁ b₂ b₃ b₄ : List Char}
    (h₁ : Blanks b₁) (hk : StringText k ks) (h₂ : Blanks b₂) (h₃ : Blanks b₃) (h : ValueText v cs)
    (h₄ : Blanks b₄) :
    MembersText [(k, v)] (b₁ ++ '"' :: (ks ++ (b₂ ++ ':' :: (b₃ ++ (cs ++ (b₄ ++ ['}']))))))
  | more {k : List Piece} {v : Json} {ms : List (List Piece × Json)} {ks cs ds : List Char}
    {b₁ b₂ b₃ b₄ : List Char} (h₁ : Blanks b₁) (hk : StringText k ks) (h₂ : Blanks b₂)
    (h₃ : Blanks b₃) (h : ValueText v cs) (h₄ : Blanks b₄) (hs : MembersText ms ds) :
    MembersText ((k, v) :: ms) (b₁ ++ '"' :: (ks ++ (b₂ ++ ':' :: (b₃ ++ (cs ++ (b₄ ++ ',' :: ds))))))

end

/-- A value with blanks around it. -/
inductive DocumentText : Json → List Char → Prop where
  | mk {v : Json} {b cs b' : List Char} (hb : Blanks b) (h : ValueText v cs) (hb' : Blanks b') :
    DocumentText v (b ++ (cs ++ b'))

/-! ## Strings -/

theorem scanString_plain {c : Char} (hquote : c ≠ '"') (hslash : c ≠ '\\') (hcontrol : 0x20 ≤ c.toNat)
    (cs : List Char) :
    scanString (c :: cs) = (scanString cs).map fun r => (.char c :: r.1, r.2) := by
  have hlow : ¬ c.toNat < 0x20 := by omega
  rw [scanString, if_neg hlow]
  · cases scanString cs <;> rfl
  all_goals simp [hquote, hslash]

theorem scanString_escaped {e c : Char} (h : escape? e = some c) (cs : List Char) :
    scanString ('\\' :: e :: cs) = (scanString cs).map fun r => (.char c :: r.1, r.2) := by
  have hu : e ≠ 'u' := by
    rintro rfl
    cases h
  rw [scanString, h]
  · cases scanString cs <;> rfl
  · simp [hu]

theorem scanString_unit {a b c d : Char} {i j k l : Nat} (ha : hexValue? a = some i)
    (hb : hexValue? b = some j) (hc : hexValue? c = some k) (hd : hexValue? d = some l)
    (cs : List Char) :
    scanString ('\\' :: 'u' :: a :: b :: c :: d :: cs) =
      (scanString cs).map fun r => (.unit (4096 * i + 256 * j + 16 * k + l) :: r.1, r.2) := by
  rw [scanString, ha, hb, hc, hd]
  cases scanString cs <;> rfl

/-- **The scanner reads the strings of the grammar.** -/
theorem scanString_append {ps : List Piece} {cs : List Char} (h : StringText ps cs)
    (rest : List Char) : scanString (cs ++ rest) = some (ps, rest) := by
  induction h with
  | nil => rfl
  | cons hp h ih =>
    rw [List.append_assoc]
    cases hp with
    | plain hquote hslash hcontrol =>
      rw [List.singleton_append, scanString_plain hquote hslash hcontrol, ih, Option.map_some]
    | escaped he =>
      rw [List.cons_append, List.singleton_append, scanString_escaped he, ih, Option.map_some]
    | unit ha hb hc hd =>
      simp only [List.cons_append, List.nil_append]
      rw [scanString_unit ha hb hc hd, ih, Option.map_some]

/-- A character that needs no backslash. -/
def isPlain (c : Char) : Bool := c ≠ '"' && c ≠ '\\' && 0x20 ≤ c.toNat

theorem stringText_plain {cs : List Char} (h : ∀ c ∈ cs, isPlain c = true) :
    StringText (cs.map .char) (cs ++ ['"']) := by
  induction cs with
  | nil => exact .nil
  | cons c cs ih =>
    have hc := h c List.mem_cons_self
    simp only [isPlain, Bool.and_eq_true, decide_eq_true_eq] at hc
    obtain ⟨⟨hquote, hslash⟩, hcontrol⟩ := hc
    exact StringText.cons (w := [c]) (.plain hquote hslash hcontrol)
      (ih fun d hd => h d (List.mem_cons_of_mem _ hd))

/-! ## Numbers -/

/-- A digit does not come next. -/
def NoDigit (rest : List Char) : Prop := ∀ c ∈ rest.head?, c.isDigit = false

/-- What comes next does not go on with a number. -/
def EndsNumber (rest : List Char) : Prop :=
  ∀ c ∈ rest.head?, c.isDigit = false ∧ c ≠ '.' ∧ c ≠ 'e' ∧ c ≠ 'E'

theorem EndsNumber.noDigit {rest : List Char} (h : EndsNumber rest) : NoDigit rest :=
  fun c hc => (h c hc).1

theorem scanDigits_append {ds rest : List Char} (h : ∀ c ∈ ds, c.isDigit = true)
    (hrest : NoDigit rest) : scanDigits (ds ++ rest) = (ds, rest) := by
  rw [scanDigits, List.takeWhile_append_of_pos h, List.dropWhile_append_of_pos h]
  cases rest with
  | nil => simp
  | cons c cs =>
    have hc : c.isDigit = false := hrest c rfl
    simp [hc]

theorem scanSomeDigits_append {ds rest : List Char} (h : DigitsText ds) (hrest : NoDigit rest) :
    scanSomeDigits (ds ++ rest) = some (ds, rest) := by
  obtain ⟨hne, hdigits⟩ := h
  rw [scanSomeDigits, scanDigits_append hdigits hrest]
  cases ds with
  | nil => exact absurd rfl hne
  | cons d ds => rfl

theorem scanInteger_append {int rest : List Char} (h : IntegerText int) (hrest : NoDigit rest) :
    scanInteger (int ++ rest) = some (int, rest) := by
  obtain ⟨⟨hne, hdigits⟩, hzero⟩ := h
  rw [scanInteger, scanDigits_append hdigits hrest]
  split
  · rename_i heq
    exact absurd (Prod.ext_iff.mp heq).1 hne
  · rename_i c ds _ heq
    cases (Prod.ext_iff.mp heq).1
    cases hzero _ rfl
  · rfl

theorem scanFraction_append {frac rest : List Char} (h : FractionText frac) (hrest : NoDigit rest)
    (hpoint : ∀ c ∈ rest.head?, c ≠ '.') : scanFraction (frac ++ rest) = some (frac, rest) := by
  cases h with
  | none =>
    rw [List.nil_append, scanFraction]
    rintro cs rfl
    exact hpoint '.' rfl rfl
  | some h =>
    rw [List.cons_append, scanFraction, scanSomeDigits_append h hrest]
    rfl

theorem scanSign_append {sign rest : List Char} (h : sign = [] ∨ sign = ['+'] ∨ sign = ['-'])
    (hrest : ∀ c ∈ rest.head?, c.isDigit = true) : scanSign (sign ++ rest) = (sign, rest) := by
  rcases h with rfl | rfl | rfl
  · rw [List.nil_append, scanSign]
    all_goals
      rintro cs rfl
      cases hrest _ rfl
  · rfl
  · rfl

theorem scanExponent_append {exp rest : List Char} (h : ExponentText exp)
    (hrest : EndsNumber rest) : scanExponent (exp ++ rest) = some (exp, rest) := by
  cases h with
  | none =>
    cases rest with
    | nil => rfl
    | cons c cs =>
      obtain ⟨-, -, he, hE⟩ := hrest c rfl
      rw [List.nil_append, scanExponent, if_neg (by simp [he, hE])]
  | some he hsign h =>
    rename_i e sign ds
    have hdigit : ∀ c ∈ (ds ++ rest).head?, c.isDigit = true := by
      obtain ⟨hne, hdigits⟩ := h
      cases ds with
      | nil => exact absurd rfl hne
      | cons d ds =>
        rintro c ⟨⟩
        exact hdigits d List.mem_cons_self
    rw [List.cons_append, List.append_assoc, scanExponent, if_pos he,
      scanSign_append hsign hdigit]
    simp [scanSomeDigits_append h hrest.noDigit]

theorem scanUnsigned_append {cs rest : List Char} (h : UnsignedText cs) (hrest : EndsNumber rest) :
    scanUnsigned (cs ++ rest) = some (cs, rest) := by
  obtain ⟨hint, hfrac, hexp⟩ := h
  rename_i int frac exp
  -- Neither a digit nor a point comes behind the integer's digits or the fraction's.
  have hexpHead : ∀ c ∈ (exp ++ rest).head?, c.isDigit = false ∧ c ≠ '.' := by
    cases hexp with
    | none => exact fun c hc => ⟨(hrest c hc).1, (hrest c hc).2.1⟩
    | some he _ _ =>
      rintro c ⟨⟩
      rcases he with rfl | rfl <;> decide
  have hfracHead : NoDigit (frac ++ (exp ++ rest)) := by
    cases hfrac with
    | none => exact fun c hc => (hexpHead c hc).1
    | some _ =>
      rintro c ⟨⟩
      rfl
  rw [scanUnsigned, List.append_assoc, List.append_assoc, scanInteger_append hint hfracHead]
  simp only [Option.bind_eq_bind, Option.bind_some]
  rw [scanFraction_append hfrac (fun c hc => (hexpHead c hc).1) fun c hc => (hexpHead c hc).2]
  simp only [Option.bind_some]
  rw [scanExponent_append hexp hrest, Option.bind_some, List.append_assoc]

theorem UnsignedText.exists_digit {cs : List Char} (h : UnsignedText cs) :
    ∃ c ds, cs = c :: ds ∧ c.isDigit = true := by
  obtain ⟨⟨⟨hne, hdigits⟩, -⟩, -, -⟩ := h
  rename_i int frac exp
  cases int with
  | nil => exact absurd rfl hne
  | cons c int => exact ⟨c, _, rfl, hdigits c List.mem_cons_self⟩

/-- **The scanner reads the numbers of the grammar**, where no number goes on behind them. -/
theorem scanNumber_append {cs rest : List Char} (h : NumberText cs) (hrest : EndsNumber rest) :
    scanNumber (cs ++ rest) = some (cs, rest) := by
  cases h with
  | positive h =>
    rw [scanNumber]
    · exact scanUnsigned_append h hrest
    · obtain ⟨c, ds, rfl, hc⟩ := h.exists_digit
      rintro es heq
      cases heq
      cases hc
  | negative h =>
    rw [List.cons_append, scanNumber, scanUnsigned_append h hrest]
    rfl

/-! ## Values -/

theorem skipSpace_append {b : List Char} (hb : Blanks b) (cs : List Char) :
    skipSpace (b ++ cs) = skipSpace cs := List.dropWhile_append_of_pos hb

theorem skipSpace_cons {c : Char} (hc : isSpace c = false) (cs : List Char) :
    skipSpace (c :: cs) = c :: cs := List.dropWhile_cons_of_neg (by simp [hc])

theorem skipSpace_append_cons {b : List Char} (hb : Blanks b) {c : Char} (hc : isSpace c = false)
    (cs : List Char) : skipSpace (b ++ c :: cs) = c :: cs := by
  rw [skipSpace_append hb, skipSpace_cons hc]

theorem scanValue_append {b : List Char} (hb : Blanks b) (n : Nat) (cs : List Char) :
    scanValue n (b ++ cs) = scanValue n cs := by
  cases n with
  | zero => rfl
  | succ n => rw [scanValue, scanValue, skipSpace_append hb]

theorem scanKey_append {b : List Char} (hb : Blanks b) {k : List Piece} {ks : List Char}
    (h : StringText k ks) (rest : List Char) :
    scanKey (b ++ '"' :: (ks ++ rest)) = some (k, rest) := by
  rw [scanKey, skipSpace_append hb, skipSpace_cons rfl]
  exact scanString_append h rest

/-- A character that a number starts with. -/
def startsNumber (c : Char) : Bool := c = '-' || c.isDigit

theorem NumberText.exists_head {cs : List Char} (h : NumberText cs) :
    ∃ c ds, cs = c :: ds ∧ startsNumber c = true := by
  cases h with
  | positive h =>
    obtain ⟨c, ds, rfl, hc⟩ := h.exists_digit
    exact ⟨c, ds, rfl, by rw [startsNumber, hc, Bool.or_true]⟩
  | negative h => exact ⟨'-', _, rfl, rfl⟩

theorem ne_of_startsNumber {c d : Char} (hc : startsNumber c = true) (hd : startsNumber d = false) :
    c ≠ d := by
  rintro rfl
  rw [hc] at hd
  cases hd

theorem isSpace_of_startsNumber {c : Char} (hc : startsNumber c = true) : isSpace c = false := by
  have hne : ∀ d, startsNumber d = false → c ≠ d := fun d => ne_of_startsNumber hc
  simp [isSpace, hne ' ' rfl, hne '\n' rfl, hne '\t' rfl, hne '\r' rfl]

theorem scanValue_of_startsNumber {c : Char} (hc : startsNumber c = true) (n : Nat)
    (cs : List Char) :
    scanValue (n + 1) (c :: cs) = (scanNumber (c :: cs)).map fun r => (.number r.1, r.2) := by
  have hne : ∀ d, startsNumber d = false → c ≠ d := fun d => ne_of_startsNumber hc
  rw [scanValue, skipSpace_cons (isSpace_of_startsNumber hc)]
  split
  · rename_i heq; exact absurd (List.cons.inj heq).1 (hne _ rfl)
  · rename_i heq; exact absurd (List.cons.inj heq).1 (hne _ rfl)
  · rename_i heq; exact absurd (List.cons.inj heq).1 (hne _ rfl)
  · rename_i heq; exact absurd (List.cons.inj heq).1 (hne _ rfl)
  · rename_i heq; exact absurd (List.cons.inj heq).1 (hne _ rfl)
  · rename_i heq; exact absurd (List.cons.inj heq).1 (hne _ rfl)
  · cases scanNumber (c :: cs) <;> rfl

theorem ValueText.exists_head {v : Json} {cs : List Char} (h : ValueText v cs) :
    ∃ c ds, cs = c :: ds ∧ isSpace c = false ∧ c ≠ ']' := by
  cases h with
  | number h =>
    obtain ⟨c, ds, rfl, hc⟩ := h.exists_head
    exact ⟨c, ds, rfl, isSpace_of_startsNumber hc, ne_of_startsNumber hc rfl⟩
  | null => exact ⟨'n', _, rfl, rfl, by decide⟩
  | boolTrue => exact ⟨'t', _, rfl, rfl, by decide⟩
  | boolFalse => exact ⟨'f', _, rfl, rfl, by decide⟩
  | string h => exact ⟨'"', _, rfl, rfl, by decide⟩
  | emptyArray hb => exact ⟨'[', _, rfl, rfl, by decide⟩
  | array h => exact ⟨'[', _, rfl, rfl, by decide⟩
  | emptyObject hb => exact ⟨'{', _, rfl, rfl, by decide⟩
  | object h => exact ⟨'{', _, rfl, rfl, by decide⟩

theorem endsNumber_append {b : List Char} (hb : Blanks b) {rest : List Char}
    (hrest : EndsNumber rest) : EndsNumber (b ++ rest) := by
  cases b with
  | nil => exact hrest
  | cons c b =>
    rintro d ⟨⟩
    have hspace := hb c List.mem_cons_self
    simp only [isSpace, Bool.or_eq_true, decide_eq_true_eq] at hspace
    rcases hspace with ((rfl | rfl) | rfl) | rfl <;> decide

theorem ItemsText.exists_front {vs : List Json} {cs : List Char} (h : ItemsText vs cs) :
    ∃ c ds, ItemsText vs (c :: ds) ∧ (c :: ds).length ≤ cs.length ∧ c ≠ ']' ∧
      ∀ rest, skipSpace (cs ++ rest) = c :: (ds ++ rest) := by
  cases h with
  | last hb h hb' =>
    obtain ⟨c, ds, rfl, hspace, hne⟩ := h.exists_head
    refine ⟨c, _, .last blanks_nil h hb', by simp, hne, fun rest => ?_⟩
    rw [List.append_assoc, skipSpace_append hb]
    exact skipSpace_cons hspace _
  | more hb h hb' hs =>
    obtain ⟨c, ds, rfl, hspace, hne⟩ := h.exists_head
    refine ⟨c, _, .more blanks_nil h hb' hs, by simp, hne, fun rest => ?_⟩
    rw [List.append_assoc, skipSpace_append hb]
    exact skipSpace_cons hspace _

theorem MembersText.exists_front {ms : List (List Piece × Json)} {cs : List Char}
    (h : MembersText ms cs) :
    ∃ ds, MembersText ms ('"' :: ds) ∧ ('"' :: ds).length ≤ cs.length ∧
      ∀ rest, skipSpace (cs ++ rest) = '"' :: (ds ++ rest) := by
  cases h with
  | last h₁ hk h₂ h₃ h h₄ =>
    refine ⟨_, .last blanks_nil hk h₂ h₃ h h₄, by simp, fun rest => ?_⟩
    rw [List.append_assoc, skipSpace_append h₁]
    exact skipSpace_cons rfl _
  | more h₁ hk h₂ h₃ h h₄ hs =>
    refine ⟨_, .more blanks_nil hk h₂ h₃ h h₄ hs, by simp, fun rest => ?_⟩
    rw [List.append_assoc, skipSpace_append h₁]
    exact skipSpace_cons rfl _

theorem ItemsText.two_le_length {vs : List Json} {cs : List Char} (h : ItemsText vs cs) :
    2 ≤ cs.length := by
  cases h with
  | last _ h _ | more _ h _ _ =>
    obtain ⟨c, ds, rfl, -⟩ := h.exists_head
    simp only [List.length_append, List.length_cons]
    omega

theorem MembersText.two_le_length {ms : List (List Piece × Json)} {cs : List Char}
    (h : MembersText ms cs) : 2 ≤ cs.length := by
  cases h with
  | last | more =>
    simp only [List.length_append, List.length_cons]
    omega

/-! ## The scanner -/

/-- With `n` calls in depth the scanner reads the values that are short enough for them. -/
def ScansValues (n : Nat) : Prop :=
  ∀ {v : Json} {cs : List Char}, ValueText v cs → 2 * cs.length ≤ n + 1 →
    ∀ rest, EndsNumber rest → scanValue n (cs ++ rest) = some (v, rest)

def ScansItems (n : Nat) : Prop :=
  ∀ {vs : List Json} {cs : List Char}, ItemsText vs cs → 2 * cs.length ≤ n + 2 →
    ∀ rest, scanItems n (cs ++ rest) = some (vs, rest)

def ScansMembers (n : Nat) : Prop :=
  ∀ {ms : List (List Piece × Json)} {cs : List Char}, MembersText ms cs → 2 * cs.length ≤ n + 2 →
    ∀ rest, scanMembers n (cs ++ rest) = some (ms, rest)

theorem endsNumber_cons {c : Char} (hc : c = ',' ∨ c = ']' ∨ c = '}') (cs : List Char) :
    EndsNumber (c :: cs) := by
  rintro d ⟨⟩
  rcases hc with rfl | rfl | rfl <;> decide

variable {n : Nat}

theorem scansValues_succ (hi : ScansItems n) (hm : ScansMembers n) : ScansValues (n + 1) := by
  intro v cs h hlen rest hrest
  cases h with
  | null => rfl
  | boolTrue => rfl
  | boolFalse => rfl
  | number h =>
    obtain ⟨c, ds, rfl, hc⟩ := h.exists_head
    rw [List.cons_append, scanValue_of_startsNumber hc, ← List.cons_append,
      scanNumber_append h hrest]
    rfl
  | string h =>
    rw [List.cons_append, scanValue, skipSpace_cons rfl]
    simp only [scanString_append h rest]
    rfl
  | emptyArray hb =>
    rw [List.cons_append, List.append_assoc, scanValue, skipSpace_cons rfl]
    simp only [skipSpace_append hb]
    rfl
  | emptyObject hb =>
    rw [List.cons_append, List.append_assoc, scanValue, skipSpace_cons rfl]
    simp only [skipSpace_append hb]
    rfl
  | array h =>
    rw [List.length_cons] at hlen
    obtain ⟨c, ds, hfront, hle, hne, hskip⟩ := h.exists_front
    rw [List.cons_append, scanValue, skipSpace_cons rfl]
    simp only [hskip]
    split
    · rename_i heq
      exact absurd (List.cons.inj heq).1 hne
    · rw [← List.cons_append, hi hfront (by omega)]
      rfl
  | object h =>
    rw [List.length_cons] at hlen
    obtain ⟨ds, hfront, hle, hskip⟩ := h.exists_front
    rw [List.cons_append, scanValue, skipSpace_cons rfl]
    simp only [hskip]
    change ((scanMembers n ('"' :: ds ++ rest)).bind fun r => some (Json.object r.1, r.2)) = _
    rw [hm hfront (by omega), Option.bind_some]

theorem scansItems_succ (hv : ScansValues n) (hi : ScansItems n) : ScansItems (n + 1) := by
  intro vs cs h hlen rest
  cases h with
  | last hb h hb' =>
    simp only [List.length_append, List.length_cons, List.length_nil] at hlen
    simp only [List.append_assoc, List.singleton_append]
    rw [scanItems, scanValue_append hb, hv h (by omega) _
      (endsNumber_append hb' (endsNumber_cons (.inr (.inl rfl)) _))]
    simp only [Option.bind_eq_bind, Option.bind_some, skipSpace_append hb']
    rfl
  | more hb h hb' hs =>
    obtain ⟨c, ds, -, hle, -, -⟩ := hs.exists_front
    simp only [List.length_append, List.length_cons] at hlen hle
    simp only [List.append_assoc, List.cons_append]
    rw [scanItems, scanValue_append hb, hv h (by omega) _
      (endsNumber_append hb' (endsNumber_cons (.inl rfl) _))]
    simp only [Option.bind_eq_bind, Option.bind_some, skipSpace_append_cons hb' (c := ',') rfl]
    rw [hi hs (by omega)]
    rfl

theorem scansMembers_succ (hv : ScansValues n) (hm : ScansMembers n) : ScansMembers (n + 1) := by
  intro ms cs h hlen rest
  cases h with
  | last h₁ hk h₂ h₃ h h₄ =>
    simp only [List.length_append, List.length_cons, List.length_nil] at hlen
    simp only [List.append_assoc, List.cons_append, List.nil_append]
    rw [scanMembers, scanKey_append h₁ hk]
    simp only [Option.bind_eq_bind, Option.bind_some, skipSpace_append_cons h₂ (c := ':') rfl]
    rw [scanValue_append h₃, hv h (by omega) _
      (endsNumber_append h₄ (endsNumber_cons (.inr (.inr rfl)) _))]
    simp only [Option.bind_some, skipSpace_append_cons h₄ (c := '}') rfl]
  | more h₁ hk h₂ h₃ h h₄ hs =>
    simp only [List.length_append, List.length_cons] at hlen
    simp only [List.append_assoc, List.cons_append]
    rw [scanMembers, scanKey_append h₁ hk]
    simp only [Option.bind_eq_bind, Option.bind_some, skipSpace_append_cons h₂ (c := ':') rfl]
    rw [scanValue_append h₃, hv h (by omega) _
      (endsNumber_append h₄ (endsNumber_cons (.inl rfl) _))]
    simp only [Option.bind_some, skipSpace_append_cons h₄ (c := ',') rfl]
    rw [hm hs (by omega)]
    rfl

/-- **The scanner reads the values of the grammar.** The induction is on the depth, as every call
makes its own calls with one less. -/
theorem scan_append (n : Nat) : ScansValues n ∧ ScansItems n ∧ ScansMembers n := by
  induction n with
  | zero =>
    refine ⟨fun h hlen => ?_, fun h hlen => ?_, fun h hlen => ?_⟩
    · obtain ⟨c, ds, rfl, -⟩ := h.exists_head
      rw [List.length_cons] at hlen
      omega
    · have htwo := h.two_le_length
      omega
    · have htwo := h.two_le_length
      omega
  | succ n ih =>
    obtain ⟨hv, hi, hm⟩ := ih
    exact ⟨scansValues_succ hi hm, scansItems_succ hv hi, scansMembers_succ hv hm⟩

/-- **Every text of the grammar has its tree.** -/
theorem parse?_of_documentText {v : Json} {cs : List Char} (h : DocumentText v cs) :
    parse? cs = some v := by
  obtain ⟨hb, h, hb'⟩ := h
  rename_i b cs b'
  have hends : EndsNumber b' := by
    rw [← List.append_nil b']
    exact endsNumber_append hb' (by rintro c ⟨⟩)
  have hskip : skipSpace b' = [] := by
    rw [← List.append_nil b', skipSpace_append hb']
    rfl
  rw [parse?, scanValue_append hb, (scan_append _).1 h (by simp; omega) _ hends]
  simp [hskip]

end ComponentHooks.Json
