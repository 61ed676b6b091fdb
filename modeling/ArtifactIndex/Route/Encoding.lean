/-
**Sites and routes as JSON.**
-/

import ArtifactIndex.Json.Value
import ArtifactIndex.Route.Basic

namespace ArtifactIndex

/-- A site; the expansion is left out where there is none. -/
def Site.toJson (site : Site) : Json :=
  let expansion :=
    match site.expansion with
    | some action => [("expansion", Json.string action)]
    | none => []
  .record ([("file", .string site.file), ("line", .nat site.line), ("start_byte", .nat site.start),
    ("end_byte", .nat site.stop)] ++ expansion)

/-- A parameter of a path. -/
def PathParameter.toJson (parameter : PathParameter) : Json :=
  .record [("name", .string parameter.name), ("inferred_type", .string parameter.inferredType.text),
    ("optional", .bool parameter.optional),
    ("constraint_pattern", Json.optionalString parameter.constraint)]

/-- A parameter of a domain. -/
def DomainParameter.toJson (parameter : DomainParameter) : Json :=
  .record [("name", .string parameter.name), ("optional", .bool parameter.optional),
    ("pattern", Json.optionalString parameter.pattern),
    ("default", Json.optionalString parameter.fallback)]

/-- A middleware entry. -/
def Middleware.toJson (middleware : Middleware) : Json :=
  .record [("name", .string middleware.name), ("parameters", Json.strings middleware.parameters),
    ("source", .string middleware.source.text)]

/-- An action taken apart. -/
def Action.toJson (action : Action) : Json :=
  .record [("controller", Json.optionalString action.controller),
    ("method", Json.optionalString action.method),
    ("namespace", Json.optionalString action.namespaceName), ("is_closure", .bool action.isClosure)]

namespace Route

/-- A table of texts by name. -/
def constraintsJson (constraints : Dict String) : Json :=
  .object (constraints.entries.map fun entry => (entry.1, .string entry.2))

/-- A route with all its fields. -/
def toJson (route : Route) : Json :=
  .record [("name", Json.optionalString route.name), ("method", .string route.method),
    ("path", .string route.path), ("controller", Json.optionalString route.controller),
    ("middleware", Json.strings route.middleware),
    ("middleware_sources", Json.ofList Middleware.toJson route.middlewareSources),
    ("domain", Json.optionalString route.domain),
    ("domain_parameters", Json.ofList DomainParameter.toJson route.domainParameters),
    ("parameters", Json.ofList PathParameter.toJson route.parameters),
    ("where_constraints", constraintsJson route.constraints),
    ("group_prefix", .string route.groupPrefix),
    ("namespace", Json.optionalString route.namespaceName),
    ("declaration", route.declaration.toJson)]

/-- A route for display: its action taken apart, its middleware with their sources. -/
def definitionJson (route : Route) : Json :=
  .record [("name", Json.optionalString route.name), ("method", .string route.method),
    ("uri", .string route.path), ("action", route.action.toJson),
    ("middleware", Json.ofList Middleware.toJson route.middlewareSources),
    ("parameters", Json.ofList PathParameter.toJson route.parameters),
    ("domain", Json.optionalString route.domain),
    ("domain_parameters", Json.ofList DomainParameter.toJson route.domainParameters),
    ("prefix", .string route.groupPrefix),
    ("where_constraints", constraintsJson route.constraints),
    ("declaration", route.declaration.toJson)]

end Route

end ArtifactIndex
