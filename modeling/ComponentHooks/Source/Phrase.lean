import ComponentHooks.Source.Reader

/-!
# Phrases

Types and values are read to find out where they end. What remains of them is the text.

* `Phrase`: what was read, without blanks;
* `++`: one phrase behind another;
* `sign`, `keyword`, `anyWord`, `anyToken`, `anyGroup`: phrases of one token;
* `optional`, `optionalSign`, `optionalWord`: phrases that may be left out;
* `Reader.asWritten`, `Reader.kept`: a phrase whose text is that of its tokens, always or sometimes;
* `inside`, `holding`: a phrase in brackets;
* `items`, `separated`, `several`, `collected`: lists of phrases;
* `Reader.whole`: what all of the tokens write.
-/

namespace ComponentHooks.Source

/-- What was read, without blanks. -/
structure Phrase where
  text : String := ""
  /-- The brackets of the first group in which something is left over. -/
  overfull? : Option Bracket := none
  deriving DecidableEq, Repr

namespace Phrase

instance : Append Phrase where
  append x y := { text := x.text ++ y.text, overfull? := x.overfull?.or y.overfull? }

/-- A token. -/
def ofToken (t : Token) : Phrase := { text := t.spelling }

/-- The phrase with brackets around it. -/
def bracketed (b : Bracket) (x : Phrase) : Phrase :=
  { x with text := b.opening ++ x.text ++ b.closing }

/-- The phrase, read to its end; if a group in it has more tokens, this is known from now on. -/
def leaving (left : List Token) (b : Bracket) (x : Phrase) : Phrase :=
  { x with overfull? := x.overfull?.or (if left.isEmpty then none else some b) }

end Phrase

/-! ## Sequences -/

variable {α : Type}

/-- A phrase behind another. -/
def Tail.followedBy (s t : Tail Phrase) : Tail Phrase :=
  s.next fun x => t.next fun y => .done (x ++ y)

/-- A phrase behind another. -/
def Reader.followedBy (r : Reader Phrase) (t : Tail Phrase) : Reader Phrase :=
  r.next fun x => t.next fun y => .done (x ++ y)

instance : HAppend (Tail Phrase) (Tail Phrase) (Tail Phrase) := ⟨Tail.followedBy⟩

instance : HAppend (Reader Phrase) (Tail Phrase) (Reader Phrase) := ⟨Reader.followedBy⟩

instance : HAppend (Reader Phrase) (Reader Phrase) (Reader Phrase) :=
  ⟨fun r s => r.followedBy s.tail⟩

instance : HAppend (Tail Phrase) (Reader Phrase) (Reader Phrase) :=
  ⟨fun t r => t.before fun x => r.map (x ++ ·)⟩

/-- No phrase. -/
def blank : Tail Phrase := .done {}

/-- A phrase that is there if the tokens say so. -/
def optional (present : List Token → Bool) (r : Reader Phrase) : Tail Phrase :=
  .look fun ts => if present ts then r.tail else blank

/-- The phrase whose text is that of its tokens. -/
def Reader.asWritten (r : Reader Phrase) : Reader Phrase :=
  r.withTokens.map fun (x, ts) => { x with text := spell ts }

/-- A thing with its phrase, whose text is that of its tokens if it is known to be kept. -/
def Reader.keptWith (r : Reader (α × Bool × Phrase)) : Reader (α × Phrase) :=
  r.withTokens.map fun ((a, raw, x), ts) => (a, if raw then { x with text := spell ts } else x)

/-- The phrase, whose text is that of its tokens if it is known to be kept. -/
def Reader.kept (r : Reader (Bool × Phrase)) : Reader Phrase :=
  (r.map ((), ·)).keptWith.map (·.2)

/-! ## Single tokens -/

/-- A piece of punctuation. -/
def sign (s : String) : Reader Phrase := (mark s).map fun _ => { text := s }

/-- A keyword. -/
def keyword (word : String) : Reader Phrase := single (.keyword word) fun
  | .word w => if w = word then some { text := word } else none
  | _ => none

/-- Any word. -/
def anyWord : Reader Phrase := single .word fun
  | .word w => some { text := w }
  | _ => none

/-- An identifier. -/
def name : Reader Phrase := identifier.map fun w => { text := w }

/-- A lifetime. -/
def lifetime : Reader Phrase := single .lifetime fun
  | .lifetime n => some (.ofToken (.lifetime n))
  | _ => none

/-- Any token. -/
def anyToken (w : Wanted) : Reader Phrase := single w fun t => some (.ofToken t)

/-- A group of any tokens. -/
def anyGroup : Reader Phrase := single .delimiter fun
  | .group b ts => some (.ofToken (.group b ts))
  | _ => none

/-- A literal, of which the tokens are known to begin with one. -/
def literal : Reader Phrase :=
  .look fun ts =>
    if startsWith "-" ts then sign "-" ++ anyToken .literal else anyToken .literal

/-- A piece of punctuation that may be left out. -/
def optionalSign (s : String) : Tail Phrase := optional (startsWith s) (sign s)

/-- A keyword that may be left out. -/
def optionalWord (word : String) : Tail Phrase := optional (startsWithWord word) (keyword word)

/-- A lifetime that may be left out. -/
def optionalLifetime : Tail Phrase := optional startsWithLifetime lifetime

/-! ## Groups -/

/-- A phrase in brackets, and what follows it. That something is left over in the brackets is known
behind all that. -/
def holding (b : Bracket) (t : Tail Phrase) (more : Tail Phrase) : Reader Phrase :=
  (group b).next fun inner => do
    let (x, left) ← Tail.within inner t
    let y ← more
    return (x.bracketed b ++ y).leaving left b

/-- A phrase in brackets. -/
def inside (b : Bracket) (t : Tail Phrase) : Reader Phrase := holding b t blank

/-! ## Lists -/

/-- Phrases as long as the tokens go on. -/
def several (goesOn : List Token → Bool) (r : Reader Phrase) : Tail Phrase :=
  .loop (fun _ ts => goesOn ts) (fun x => r.map (x ++ ·)) {}

/-- Phrases with a separator between them, up to where `stop` holds; the last separator may be left
out. -/
def items (separator : String) (stop : List Token → Bool) (r : Reader Phrase) : Tail Phrase :=
  .loop (fun _ ts => !stop ts)
    (fun x => r.next fun y => .look fun ts =>
      if stop ts then .done (x ++ y) else (sign separator).tail.next fun z => .done (x ++ y ++ z))
    {}

/-- Phrases up to where `stop` holds or where no separator follows. -/
def separated (separator : String) (stop : List Token → Bool) (r : Reader Phrase) : Tail Phrase :=
  .map (·.1) <| .loop (fun (_, open?) ts => open? && !stop ts)
    (fun (x, _) => r.next fun y => .look fun ts =>
      if startsWith separator ts then
        (sign separator).tail.next fun z => .done (x ++ y ++ z, true)
      else .done (x ++ y, false))
    ({}, true)

/-- Phrases with commas between them, up to the end of the tokens. -/
def list (r : Reader Phrase) : Tail Phrase := items "," List.isEmpty r

/-- Things with commas between them, up to the end of the tokens, with the phrase that they make. -/
def collected (r : Reader (α × Phrase)) : Tail (List α × Phrase) :=
  .loop (fun _ ts => !ts.isEmpty)
    (fun (as, x) => r.next fun (a, y) => .look fun ts =>
      if ts.isEmpty then .done (as ++ [a], x ++ y)
      else (sign ",").tail.map fun z => (as ++ [a], x ++ y ++ z))
    ([], {})

/-- The thing that all of the tokens write. -/
def Reader.whole (r : Reader (α × Phrase)) (ts : List Token) : Except Fault α :=
  match r.read ts with
  | .error e => .error e
  | .ok ((a, x), rest) =>
    match x.overfull? with
    | some b => .error (.overfull b)
    | none => if rest.isEmpty then .ok a else .error .leftover

end ComponentHooks.Source
