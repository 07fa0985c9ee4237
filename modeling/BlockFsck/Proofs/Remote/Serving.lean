import BlockFsck.Http.Api
import BlockFsck.Proofs.Namespace.Reading
import BlockFsck.Remote.Client

/-!
# Serving the requests of queries

The HTTP interface answers the request that carries a query by asking that query once, and the
client reads the reply back out of the response.
-/

namespace BlockFsck.Http

open Remote (requestOf)

/-- The request under an id. -/
def Request.labelled (r : Request) (id : String) : Request := { r with requestId := some id }

/-- What an endpoint makes of the reply to its query. -/
def respond : (q : Query) → q.Reply → Except Failure Response
  | .resolve path, found =>
    match found with
    | some entry => .ok { status := 200, content := .body (.json entry.toJson) }
    | none => .error (.namespaceRefused (.notFound path))
  | .listChildren path, children =>
    .ok (.json 200 [("path", .str path), ("children", .arr (children.map Entry.toJson))])
  | .blockLocations _, record => .ok { status := 200, content := .body (.json record.toSentJson) }
  | .rename _ _, value => .ok (success value)
  | .mkdirs _, value => .ok (success value)
  | .delete _ _, value => .ok (success value)
  | .corruptFiles, files => .ok (.json 200 [("files", .arr (files.map fun (file : String) => .str file))])

/-- What is sent for what an endpoint has ended with. -/
def sentFor (r : Request) (ended : Except Failure Response) : Response :=
  match ended with
  | .ok response => tagged r response
  | .error failure =>
    match errorResponse? failure with
    | some response => tagged r response
    | none => internalError

/-- The endpoint that the request of a query comes to. -/
def endpointOf (room : Nat) : Query → Request → Endpoint
  | .resolve _ => getEntry
  | .listChildren _ => getChildren
  | .blockLocations _ => getBlocks
  | .rename _ _ => postRename room
  | .mkdirs _ => postMkdirs room
  | .delete _ _ => deleteEntry
  | .corruptFiles => fun _ => getCorruptFiles

private theorem serve_eq {depth room : Nat} {r : Request} {q : Query}
    (hpath : r.path = (requestOf q).path)
    (hmethod : r.method = (requestOf q).method) :
    serve depth room r = (endpointOf room q r).run.bind fun ended => .done (sentFor r ended) := by
  obtain ⟨methods, hmethods, hfind⟩ : ∃ methods, methodsOf? depth room r.path = some methods ∧
      methods.find? (·.1 = r.method) = some (r.method, endpointOf room q) := by
    rw [hpath, hmethod]
    cases q <;> simp [methodsOf?, routes, pages, requestOf, endpointOf]
  rw [serve, hmethods]
  dsimp only
  rw [hfind]
  change (endpointOf room q r).run.bind _ = (endpointOf room q r).run.bind _
  congr 1
  funext ended
  rcases ended with failure | response
  · dsimp only [sentFor]
    cases errorResponse? failure <;> rfl
  · rfl

private theorem textParameter_of_first {r : Request} {name value : String}
    {more : List (String × String)}
    (hquery : r.query = (name, value) :: more) (hmore : ∀ pair ∈ more, pair.1 ≠ name) :
    textParameter r name = .valid value := by
  have hnone : more.reverse.find? (·.1 = name) = none := by
    rw [List.find?_eq_none]
    intro pair hpair
    simpa using hmore pair (List.mem_reverse.mp hpair)
  rw [textParameter, Request.parameter?, hquery, List.reverse_cons, List.find?_append, hnone]
  simp

private theorem run_ask {q : Query} {go : q.Reply → Endpoint}
    (hgo : ∀ reply, (go reply).run = .done (respond q reply)) :
    (ask q >>= go).run = .ask (.query q) fun answer => .done (answer.bind (respond q)) := by
  change Program.ask _ _ = Program.ask _ _
  congr 1
  funext answer
  cases answer with
  | error failure => rfl
  | ok reply => exact hgo reply

private theorem run_endpointOf (room : Nat) (q : Query) (id : String) :
    (endpointOf room q ((requestOf q).labelled id)).run =
      .ask (.query q) fun answer => .done (answer.bind (respond q)) := by
  cases q with
  | resolve path =>
    have hpath := textParameter_of_first (r := (requestOf (.resolve path)).labelled id) rfl
      (List.forall_mem_nil _)
    rw [endpointOf, getEntry, hpath]
    apply run_ask
    intro found
    cases found <;> rfl
  | listChildren path =>
    have hpath := textParameter_of_first (r := (requestOf (.listChildren path)).labelled id) rfl
      (List.forall_mem_nil _)
    rw [endpointOf, getChildren, hpath]
    exact run_ask fun _ => rfl
  | blockLocations path =>
    have hpath := textParameter_of_first (r := (requestOf (.blockLocations path)).labelled id) rfl
      (List.forall_mem_nil _)
    rw [endpointOf, getBlocks, hpath]
    exact run_ask fun _ => rfl
  | rename source target =>
    have hread : endpointOf room (.rename source target)
        ((requestOf (.rename source target)).labelled id) =
          ask (.rename source target) >>= fun value => return success value := by
      simp [endpointOf, postRename, readingBody, bodyOf, requestOf, Request.labelled, Body.read,
        Json.need, Json.text, reading]
    rw [hread]
    exact run_ask fun _ => rfl
  | mkdirs path =>
    have hread : endpointOf room (.mkdirs path) ((requestOf (.mkdirs path)).labelled id) =
        ask (.mkdirs path) >>= fun value => return success value := by
      simp [endpointOf, postMkdirs, readingBody, bodyOf, requestOf, Request.labelled, Body.read,
        Json.need, Json.text, reading]
    rw [hread]
    exact run_ask fun _ => rfl
  | delete path recursive =>
    have hpath := textParameter_of_first (r := (requestOf (.delete path recursive)).labelled id)
      rfl (by cases recursive <;> simp)
    have hrecursive : truthParameter ((requestOf (.delete path recursive)).labelled id)
        "recursive" = .valid recursive := by
      cases recursive with
      | false => simp [truthParameter, Request.parameter?, requestOf, Request.labelled]
      | true =>
        have hword : Json.truthOfWord? "true" = some true := by decide +kernel
        simp [truthParameter, Request.parameter?, requestOf, Request.labelled, hword]
    rw [endpointOf, deleteEntry, hpath, hrecursive]
    exact run_ask fun _ => rfl
  | corruptFiles => exact run_ask fun _ => rfl

/-- The request of a query is answered by asking it. -/
theorem serve_query (depth room : Nat) (q : Query) (id : String) :
    serve depth room ((requestOf q).labelled id) = .ask (.query q) fun answer =>
      .done (sentFor ((requestOf q).labelled id) (answer.bind (respond q))) := by
  have hserve : serve depth room ((requestOf q).labelled id) = _ := serve_eq rfl rfl
  rw [hserve, run_endpointOf]
  rfl

end BlockFsck.Http
