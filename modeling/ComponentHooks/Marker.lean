/-!
# Markers

A component's source carries *markers*: on the type itself, on fields and on methods. The set of
kinds is closed, and every kind has its sites.

* `Kind`, `Kind.name`, `Kind.ofName?`: the kinds and their names;
* `Site`, `Site.kinds`: where a marker stands, and which kinds the extraction looks for there, in
  that order;
* `Marker`: a kind with what the declaration carried.

**`Kind.ofName?_eq_some_iff`**: reading a name inverts writing it.
-/

namespace ComponentHooks

/-- What a marker asks for. -/
inductive Kind where
  /-- Runs before configuration values are bound. -/
  | preConfiguration
  /-- Runs once construction and injection are complete. -/
  | postConstruct
  /-- Runs when the instance is torn down. -/
  | preDestroy
  /-- A single resource injection point. -/
  | resource
  /-- A group of resource injection points. -/
  | resources
  /-- Runs during application warm-up. -/
  | warmUp
  /-- Binds a field to a configuration value. -/
  | configuration
  /-- Binds a field to a configuration variable. -/
  | configurationVariable
  deriving DecidableEq, Repr

namespace Kind

/-- Every kind, in the order of the list above. -/
def all : List Kind :=
  [preConfiguration, postConstruct, preDestroy, resource, resources, warmUp, configuration,
    configurationVariable]

/-- The kind's name, in lower case with underscores; also the name of its attribute. -/
def name : Kind → String
  | preConfiguration => "pre_configuration"
  | postConstruct => "post_construct"
  | preDestroy => "pre_destroy"
  | resource => "resource"
  | resources => "resources"
  | warmUp => "warm_up"
  | configuration => "configuration"
  | configurationVariable => "configuration_variable"

/-- The kind's name in expanded declarations, without underscores. -/
def label : Kind → String
  | preConfiguration => "PreConfiguration"
  | postConstruct => "PostConstruct"
  | preDestroy => "PreDestroy"
  | resource => "Resource"
  | resources => "Resources"
  | warmUp => "WarmUp"
  | configuration => "Configuration"
  | configurationVariable => "ConfigurationVariable"

/-- The kind with exactly this name. -/
def ofName? (text : String) : Option Kind := all.find? (·.name = text)

/-- Resource and resource-group markers. -/
def isResource (k : Kind) : Bool := k = resource || k = resources

theorem mem_all (k : Kind) : k ∈ all := by cases k <;> decide

/-- **Reading a name inverts writing it.** -/
theorem ofName?_eq_some_iff {text : String} {k : Kind} : ofName? text = some k ↔ text = k.name := by
  constructor
  · intro h
    have := List.find?_some h
    exact (of_decide_eq_true this).symm
  · rintro rfl
    cases k <;> decide

end Kind

/-- Where a marker stands in the source. -/
inductive Site where
  | type
  | field
  | method
  deriving DecidableEq, Repr

/-- The kinds looked for at a site, in the order in which they are looked for. -/
def Site.kinds : Site → List Kind
  | .method => [.preConfiguration, .postConstruct, .preDestroy, .resource, .resources, .warmUp]
  | .field => [.configuration, .resource, .resources, .configurationVariable]
  | .type => [.resource, .resources]

/-- The kind is looked for at the site. -/
def Kind.appliesTo (k : Kind) (s : Site) : Bool := s.kinds.contains k

/-- One declared marker: `value` is a configuration key, a variable or a resource name, `entries`
are the names grouped under a resource group. -/
structure Marker where
  kind : Kind
  value : Option String := none
  entries : List String := []
  deriving DecidableEq, Repr

end ComponentHooks
