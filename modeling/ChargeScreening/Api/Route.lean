import ChargeScreening.Text.Percent

/-!
# Routes of the interface

## Main definitions

* `Method`: what a request wants done
* `Route`: what it is about, with `Route.ofPath?`
* `Route.allows`: which methods a route knows
-/

namespace ChargeScreening

/-- What a request wants done. -/
inductive Method where
  | get
  | head
  | post
  | put
  | delete
  | options
  /-- A method that no route knows. -/
  | other
deriving DecidableEq, Repr

/-- The method of a word; case matters. -/
def Method.ofWord : String → Method
  | "GET" => .get
  | "HEAD" => .head
  | "POST" => .post
  | "PUT" => .put
  | "DELETE" => .delete
  | "OPTIONS" => .options
  | _ => .other

/-- What a request is about. -/
inductive Route where
  | health
  | decide
  | rules
  /-- One rule. Its id stands in the last segment of the path and may be escaped. -/
  | rule (segment : String)
deriving DecidableEq, Repr

namespace Route

/-- The route of a path, without the query behind it. A segment is never empty, and a slash at the
end leads nowhere. -/
def ofPath? (path : String) : Option Route :=
  let cs := path.toList.takeWhile fun c => c != '?' && c != '#'
  match String.ofList cs with
  | "/health" => some .health
  | "/v1/decide" => some .decide
  | "/v1/rules" => some .rules
  | _ =>
    let collection := "/v1/rules/".toList
    let segment := cs.drop collection.length
    if collection.isPrefixOf cs && !segment.isEmpty && !segment.contains '/' then
      some (.rule (String.ofList segment))
    else none

/-- Whether a route knows a method. Where something can be had, it can also be asked about. -/
def allows : Route → Method → Bool
  | health, m => m == .get || m == .head
  | decide, m => m == .post
  | rules, m => m == .post
  | rule _, m => m == .get || m == .head || m == .put || m == .delete

end Route

end ChargeScreening
