import ComponentHooks.Sample.Instance

/-!
# Small hierarchies

Two hierarchies of declarations written by hand, each with the loader that knows its types.

* `Diamond.loader`: a type with an ancestor that it reaches over two others, one above the other;
* `Ring.loader`: a type below a ring of two, one of which goes by two names.
-/

namespace ComponentHooks.Sample

/-- A method without a body that is to run after construction. -/
def initHook : Method world :=
  { id := ⟨"", "init", "()"⟩, markers := [{ kind := .postConstruct }] }

/-- A loader that knows these types. -/
def loaderOf (aliases : List (String × String)) (cs : List (TypeDecl world)) : FiniteLoader world :=
  LoaderScript.loader { aliases } "zoo" (cs.foldl Registry.register .empty)

namespace Diamond

/-- The ancestor of all others. -/
def top : TypeDecl world := .declare "Top" .interface none [] [] [initHook]

/-- A type between the top and the bottom, with a hook of the same name. -/
def side : TypeDecl world := .declare "Side" .interface none [] [] [initHook] none [.named "Top"]

/-- The superclass of the bottom. Its members cannot be told. -/
def base : TypeDecl world :=
  .declare "Base" .concrete none [{ kind := .resource }] [] [initHook] none [.named "Top"] ["Gone"]

/-- The type at the bottom. One of its supertypes is not known. -/
def bottom : TypeDecl world :=
  .declare "Bottom" .concrete none [] [] [] (some (.named "Base")) [.named "Gone", .named "Side"]

def loader : FiniteLoader world := loaderOf [] [top, side, base, bottom]

end Diamond

namespace Ring

/-- The type below the ring. -/
def below : TypeDecl world := .declare "Below" .concrete none [] [] [] (some (.named "First"))

def first : TypeDecl world := .declare "First" .interface none [] [] [] none [.named "Second"]

/-- The type that closes the ring, by another name of the first. -/
def second : TypeDecl world :=
  .declare "Second" .interface none [] [] [] none [.named "Gone", .named "Other"]

def loader : FiniteLoader world := loaderOf [("Other", "First")] [below, first, second]

end Ring

end ComponentHooks.Sample
