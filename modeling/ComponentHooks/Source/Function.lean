import ComponentHooks.Source.Expression

/-!
# Functions

A function is declared with the parameters that it takes and with what is asked of them.

* `Reach`, `reach`: who may use a declaration;
* `Nested.whereClause`: what is asked of types and lifetimes;
* `Receiver`, `Parameter`, `Nested.functionParameters`: what a function takes;
* `Signature`, `Nested.signature`: a function without its body.
-/

namespace ComponentHooks.Source

/-! ## Reach -/

/-- Who may use a declaration. -/
inductive Reach where
  | inherited
  | everywhere
  /-- A part of the program, as it is written. -/
  | restricted (scope : Phrase)
  deriving DecidableEq, Repr

/-- The text of a reach. -/
def Reach.phrase : Reach → Phrase
  | inherited => {}
  | everywhere => { text := "pub" }
  | restricted x => x

/-- Who may use what follows. Other parentheses than those of a part of the program belong to what
follows. -/
def reach : Tail Reach :=
  .look fun ts =>
    if startsWithWord "pub" ts then
      match ts.drop 1 with
      | .group .round (.word w :: inner) :: _ =>
        if w = "in" then
          (keyword "pub" ++ inside .round (keyword "in" ++ plainPath.map (·.phrase)).tail).tail.map
            .restricted
        else if ["crate", "self", "super"].contains w && inner.isEmpty then
          (keyword "pub" ++ anyGroup).tail.map .restricted
        else (keyword "pub").tail.map fun _ => .everywhere
      | _ => (keyword "pub").tail.map fun _ => .everywhere
    else .done .inherited

namespace Nested

variable (g : Nested)

/-! ## Requirements -/

/-- The tokens do not go on with what is asked of types. -/
def endsRequirements (ts : List Token) : Bool :=
  ts.isEmpty || startsWithGroup .curly ts || startsWithSign [",", ";", "="] ts ||
    startsWithColon ts

/-- What is asked of a lifetime or of a type. -/
def requirement : Reader Phrase :=
  .look fun ts =>
    if startsWithLifetime ts && startsWith ":" (ts.drop 1) then
      lifetime ++ sign ":" ++
        separated "+" (fun ts => endsRequirements ts || startsWith ":" ts) lifetime
    else
      g.optionalBinder ++ g.typePhrase true ++ sign ":" ++
        separated "+" endsRequirements g.bound

/-- What is asked of types and lifetimes. If it is nothing, it is not written. -/
def whereClause : Tail Phrase :=
  .look fun ts =>
    if startsWithWord "where" ts then
      (keyword "where").tail.next fun x => .look fun ts =>
        if opensParameters ts then .fail (.misuse .reservedParameters)
        else (separated "," endsRequirements g.requirement).map fun y =>
          if y.text = "" then y else x ++ y
    else blank

end Nested

/-! ## Parameters -/

/-- How a method takes the state that it runs on. -/
inductive Receiver where
  | shared
  | exclusive
  | owned
  /-- The receiver is written with its type. -/
  | typed
  deriving DecidableEq, Repr

/-- What a function takes. -/
inductive ParameterForm where
  | receiver (r : Receiver)
  | argument
  /-- Three dots, for any more arguments. -/
  | rest
  deriving DecidableEq, Repr

/-- What a function takes, as it is written. -/
structure Parameter where
  form : ParameterForm
  phrase : Phrase := {}
  deriving DecidableEq, Repr

/-- The parameter is the state of a method. -/
def Parameter.isReceiver (p : Parameter) : Bool :=
  match p.form with
  | .receiver _ => true
  | _ => false

/-- The tokens begin with the state of a method. Three dots behind its name stand for any arguments,
and two colons for a path. -/
def startsWithReceiver (ts : List Token) : Bool :=
  let skip (present : List Token → Bool) (ts : List Token) := if present ts then ts.drop 1 else ts
  let skipMut := skip (startsWithWord "mut")
  if startsWith "&" ts then
    startsWithWord "self" (skipMut (skip startsWithLifetime (ts.drop 1)))
  else
    let rest := (skipMut ts).drop 1
    startsWithWord "self" (skipMut ts) && !startsWith "::" rest &&
      !(startsWith ":" rest && startsWith "..." (rest.drop 1))

namespace Nested

variable (g : Nested)

/-- The state of a method: a reference, or maybe with its type. -/
def receiver : Reader Parameter :=
  .look fun ts =>
    if startsWith "&" ts then
      (sign "&" ++ optionalLifetime).next fun x => do
        let y ← optionalWord "mut"
        let z ← keyword "self"
        let r : Receiver := if y.text = "" then .shared else .exclusive
        return { form := .receiver r, phrase := x ++ y ++ z }
    else
      (optionalWord "mut" ++ keyword "self").next fun x => .look fun ts =>
        if startsWith ":" ts then
          (sign ":" ++ g.typePhrase true).tail.map fun y =>
            { form := .receiver .typed, phrase := x ++ y }
        else .done { form := .receiver .owned, phrase := x }

/-- An argument with its type, or three dots behind a name. An argument of a generic type may have
no name. -/
def argumentParameter : Reader Parameter :=
  .look fun ts =>
    if startsWithIdentifier ts && startsWith "<" (ts.drop 1) then
      (g.typePhrase true).map fun x => { form := .argument, phrase := { text := "_:" } ++ x }
    else
      (g.pattern.map (·.phrase) ++ sign ":").next fun x => .look fun ts =>
        if startsWith "..." ts then
          (sign "...").tail.map fun y => { form := .rest, phrase := x ++ y }
        else (g.typePhrase true).tail.map fun y => { form := .argument, phrase := x ++ y }

/-- What a function takes, with attributes in front. -/
def functionParameter : Reader Parameter :=
  g.attributePhrase.before fun a => (Reader.look fun ts =>
    if startsWith "..." ts then (sign "...").map fun x => { form := .rest, phrase := x }
    else if startsWithReceiver ts then g.receiver
    else g.argumentParameter).map fun p => { p with phrase := a ++ p.phrase }

/-- All that a function takes: its state comes first, and nothing behind three dots. -/
def functionParameters : Tail (List Parameter × Phrase) :=
  .map (fun (ps, x, _) => (ps, x)) <| .loop (fun (_, _, open?) ts => open? && !ts.isEmpty)
    (fun (ps, x, _) => g.functionParameter.next fun p =>
      if p.isReceiver && ps.any (·.isReceiver) then .fail (.misuse .secondReceiver)
      else if p.isReceiver && !ps.isEmpty then .fail (.misuse .lateReceiver)
      else .look fun ts =>
        if ts.isEmpty then .done (ps ++ [p], x ++ p.phrase, false)
        else (sign ",").tail.map fun y => (ps ++ [p], x ++ p.phrase ++ y, p.form ≠ .rest))
    ([], {}, true)

end Nested

/-! ## Signatures -/

/-- A function without its body. -/
structure Signature where
  name : String
  asynchronous : Bool := false
  /-- The function is said to be safe, which only foreign ones can be. -/
  safe : Bool := false
  /-- What stands between angle brackets, with the brackets; nothing if there are no parameters. -/
  generics : String := ""
  parameters : List Parameter := []
  phrase : Phrase := {}
  deriving DecidableEq, Repr

/-- The tokens begin with a function; if asked, it may be said to be safe. -/
def startsWithSignature (safe : Bool) (ts : List Token) : Bool :=
  let skip (word : String) (ts : List Token) := if startsWithWord word ts then ts.drop 1 else ts
  let ts := skip "async" (skip "const" ts)
  let ts := if safe && startsWithWord "safe" ts then ts.drop 1 else skip "unsafe" ts
  let rest := skip "extern" ts
  startsWithWord "fn" <|
    if startsWithWord "extern" ts && startsWithText rest then rest.drop 1 else rest

namespace Nested

variable (g : Nested)

/-- A function without its body; if asked, it may be said to be safe. -/
def signature (safe : Bool) : Reader Signature :=
  (do
    let x ← optionalWord "const"
    let y ← optionalWord "async"
    let z ← optionalWord "unsafe"
    let w ← if safe && z.text = "" then optionalWord "safe" else blank
    let c ← convention
    let early : Bool × Bool := (y.text ≠ "", w.text ≠ "")
    return (early, x ++ y ++ z ++ w ++ c)).before fun ((asynchronous, safe), x) =>
  (keyword "fn").next fun y => do
    let n ← name
    let generics ← g.parameters
    let inner ← parentheses
    let ((parameters, z), left) ← Tail.within inner g.functionParameters
    let o ← g.output true
    let w ← g.whereClause
    return { name := n.text, asynchronous, safe, generics := generics.text, parameters,
             phrase := (x ++ y ++ n ++ generics ++ z.bracketed .round ++ o ++ w).leaving left .round }

end Nested

end ComponentHooks.Source
