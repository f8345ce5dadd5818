import TypeSieve.Config.Sourced
import TypeSieve.Failure
import TypeSieve.Filter.Report
import TypeSieve.Matcher.Exact

/-!
# Responses

What a command answers: one JSON object in pretty form and a line break. A response names its
status and the version of its form first.
-/

namespace TypeSieve

/-- The version of the form of responses. -/
def responseVersion : String := "1"

/-- The text of a response with the given status and members. -/
def responseJson (status : String) (members : List (String × Json)) : Json :=
  .object (("status", .string status) :: ("schema_version", .string responseVersion) :: members)

/-- What a filter run answers. -/
structure FilterResponse where
  skipTypes : Sourced SkipTypes
  report : Report
  /-- Where the model was written, if it was. -/
  written : Option String
  deriving DecidableEq

/-- What a match explanation answers, types in tuple notation. -/
structure MatchResponse where
  pattern : String
  candidate : String
  exact : Outcome
  anywhere : Bool
  leaves : List String
  deriving DecidableEq

namespace Outcome

/-- The name of an outcome in responses. -/
def name : Outcome → String
  | .matched => "match"
  | .unmatched => "no_match"
  | .incompatible => "incompatible"

end Outcome

namespace FilterResponse

/-- The counts of a report. -/
def summary (r : Report) : Json :=
  .object [("classes_visited", .integer r.classesVisited),
    ("attributes_removed", .integer r.attributesRemoved),
    ("methods_removed", .integer r.methodsRemoved)]

/-- Write a response. -/
def toJson (r : FilterResponse) : Json :=
  responseJson "ok" ([("config_source", .string r.skipTypes.source.name),
    ("skiptypes", r.skipTypes.value.toJson), ("summary", summary r.report),
    ("removals", .array (r.report.removals.map Removal.toJson))] ++
    (r.written.map fun path => ("written", .string path)).toList)

end FilterResponse

namespace MatchResponse

/-- Write a response. -/
def toJson (r : MatchResponse) : Json :=
  responseJson "ok" [("pattern", .string r.pattern), ("candidate", .string r.candidate),
    ("exact", .string r.exact.name), ("anywhere", .bool r.anywhere),
    ("leaves", .array (r.leaves.map .string))]

end MatchResponse

namespace Failure

/-- Write a failure with the given wording. -/
def toJsonWith (f : Failure) (message : String) : Json :=
  responseJson "error"
    [("error", .object [("code", .integer f.code), ("message", .string message)])]

/-- Write a failure. -/
def toJson (f : Failure) : Json := f.toJsonWith f.message

end Failure

/-- The text of a response. -/
def responseText (response : Json) : String := response.pretty ++ "\n"

end TypeSieve
