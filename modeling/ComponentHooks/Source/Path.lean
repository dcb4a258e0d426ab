import ComponentHooks.Source.Phrase

/-!
# Paths

A path is a sequence of words with two colons between them, and maybe two in front. In a path to a
type the words can have generic arguments.

* `Segment`, `Path`, `Path.phrase`: a path, and how it is written;
* `Path.more`, `Path.reader`: further segments, and a path;
* `plainPath`: a path without arguments;
* `nestedPath`: a path inside an attribute, whose segments are any words.
-/

namespace ComponentHooks.Source

/-- A word in a path. -/
structure Segment where
  word : String
  /-- Arguments, with the brackets around them. -/
  arguments : Phrase := {}
  deriving DecidableEq, Repr

/-- A segment as it is written. -/
def Segment.phrase (s : Segment) : Phrase := { text := s.word } ++ s.arguments

/-- A path. -/
structure Path where
  /-- Two colons stand in front. -/
  rooted : Bool := false
  segments : List Segment
  deriving DecidableEq, Repr

namespace Path

/-- The path without blanks. -/
def text (p : Path) : String :=
  (if p.rooted then "::" else "") ++
    String.intercalate "::" (p.segments.map (·.phrase.text))

/-- The brackets of the first group in which something is left over. -/
def overfull? (p : Path) : Option Bracket := p.segments.findSome? (·.arguments.overfull?)

/-- The path as it is written. -/
def phrase (p : Path) : Phrase := { text := p.text, overfull? := p.overfull? }

/-- The path with another segment. -/
def push (p : Path) (s : Segment) : Path := { p with segments := p.segments ++ [s] }

/-- No word of the path has arguments. -/
def isPlain (p : Path) : Bool := p.segments.all fun s => s.arguments.text = ""

/-- The path is one word, maybe with arguments. -/
def isName (p : Path) : Bool := !p.rooted && p.segments.length = 1

/-- The last word of the path has no arguments, or none between its brackets. -/
def isBare (p : Path) : Bool :=
  p.segments.getLast?.all fun s => ["", "<>", "::<>"].contains s.arguments.text

/-- The path with these arguments behind its last word. -/
def withArguments (p : Path) (x : Phrase) : Path :=
  { p with
    segments := p.segments.dropLast ++ p.segments.getLast?.toList.map fun s =>
      { s with arguments := x } }

end Path

/-! ## Readers -/

/-- Two colons, or none. -/
def optionalColons : Tail Bool :=
  .look fun ts =>
    if startsWith "::" ts then (mark "::").tail.next fun _ => .done true else .done false

/-- Further segments, each behind two colons at which `goesOn` holds. -/
def Path.more (goesOn : List Token → Bool) (segment : Reader Segment) (p : Path) : Tail Path :=
  .loop (fun _ ts => goesOn ts)
    (fun p => (mark "::").next fun _ => segment.tail.next fun s => .done (p.push s)) p

/-- A path whose first segment is read by `first` and the others by `later`. -/
def Path.reader (goesOn : List Token → Bool) (first later : Reader Segment) : Reader Path :=
  optionalColons.before fun rooted => first.next fun s =>
    Path.more goesOn later { rooted, segments := [s] }

/-- Any word, as a segment. -/
def anySegment : Reader Segment := anyWord.map fun x => { word := x.text }

/-- A path without arguments. -/
def plainPath : Reader Path :=
  Path.reader (startsWith "::")
    (.look fun ts => if startsWithPath ts then anySegment else identifier.map ({ word := · }))
    (.look fun ts => if startsWithPath ts then anySegment else .fail Wanted.segment.fault)

/-! ## Paths inside attributes -/

/-- The first segment of a path inside an attribute: any word. -/
def nestedFirst : Reader Segment :=
  .look fun ts =>
    if startsWithAnyWord ts then anySegment
    else .fail fun ts =>
      if ts.isEmpty then .ended .nested
      else if startsWithLiteral ts then .nestedLiteral
      else .nestedToken

/-- A path inside an attribute. -/
def nestedPath : Reader Path := Path.reader (startsWith "::") nestedFirst anySegment

end ComponentHooks.Source
