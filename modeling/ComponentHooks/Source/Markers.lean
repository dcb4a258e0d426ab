import ComponentHooks.Marker
import ComponentHooks.Source.Attribute

/-!
# Markers in a source

Types, fields and methods carry attributes. Some of them are markers, and each kind of marker has
the sites where it may be written and the arguments that it takes there.

* `Kind.sites`: where a marker may be written; **`Kind.mem_sites_iff`**: it is looked for exactly
  there;
* `readMarker`, `readMarkers`: the markers among the attributes of a declaration.
-/

namespace ComponentHooks

/-- The sites where a marker of the kind may be written. -/
def Kind.sites : Kind → List Site
  | preConfiguration | postConstruct | preDestroy | warmUp => [.method]
  | configuration | configurationVariable => [.field]
  | resource | resources => [.type, .field, .method]

/-- **A marker is looked for exactly where it may be written.** -/
theorem Kind.mem_sites_iff (k : Kind) (s : Site) : s ∈ k.sites ↔ k.appliesTo s = true := by
  cases k <;> cases s <;> decide

namespace Source

namespace Attribute

/-- The kind of marker that the attribute is. -/
def kind? (a : Attribute) : Option Kind := Kind.ofName? a.name

/-- The attribute is a marker. -/
def isMarker (a : Attribute) : Bool := a.kind?.isSome

end Attribute

/-- The marker of a kind with these arguments. A group takes any number of names, all others one
value, and on methods only resources take it. -/
def readMarker (s : Site) (k : Kind) (arguments : Arguments) : Except Fault Marker :=
  if s ∈ k.sites then
    match arguments with
    | .absent => .ok { kind := k }
    | .list ts =>
      if k = .resources then (text.closed.all ts).map ({ kind := k, entries := · })
      else if s = .method ∧ k ≠ .resource then .error (.argued k)
      else (loneText ts).map ({ kind := k, value := some · })
    | .value _ => .error (.assigned k)
  else .error (.misplaced k s)

/-- The marker that an attribute is, if it is one. -/
def Attribute.marker? (a : Attribute) (s : Site) : Except Fault (Option Marker) :=
  match a.kind? with
  | none => .ok none
  | some k => (readMarker s k a.arguments).map some

/-- The markers among attributes, in their order. -/
def readMarkers (s : Site) : List Attribute → Except Fault (List Marker)
  | [] => .ok []
  | a :: as => do
    let m ← a.marker? s
    let ms ← readMarkers s as
    return m.toList ++ ms

end Source

end ComponentHooks
