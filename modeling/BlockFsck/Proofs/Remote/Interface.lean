import BlockFsck.Proofs.Remote.Serving

/-!
# What queries need of both ends of the wire

Routes, parameters and schemas come into the results on remote runs through two facts only: the
request of a query is answered by asking it, and the client reads the reply that was sent. Whatever
else keeps to these two can stand in the place of the interface (`Interface`).
-/

namespace BlockFsck.Remote

open Http (sentFor respond)

/-- What the client makes of the response to the request of a query. -/
def answerTo (room : Nat) : (q : Query) → Http.Response → Except Failure q.Reply
  | .resolve path, r =>
    match (fetched room path r).bind (answerIn room Json.entryForm) with
    | .ok entry => .ok (some entry)
    | .error failure => if failure.isMissing then .ok none else .error failure
  | .listChildren path, r => (fetched room path r).bind (answerIn room Json.childrenForm)
  | .blockLocations path, r => (fetched room path r).bind (answerIn room Json.recordForm)
  | .rename _ _, r => changed r
  | .mkdirs _, r => changed r
  | .delete _ _, r => changed r
  | .corruptFiles, r => (fetched room none r).bind (answerIn room Json.filesForm)
where
  changed (r : Http.Response) : Except Failure Bool :=
    if r.status = 200 then answerIn room Json.successForm r
    else (describe room r).map fun _ => false

/-- The reply can be sent as it is: the time in it is finite. -/
def IsSendable : (q : Query) → q.Reply → Prop
  | .blockLocations _, record => record.modified.toRat?.isSome = true
  | _, _ => True

/-- An interface, and a client with room for so many containers in an answer, understand each
other. -/
structure Interface (serve : Http.Request → Program Metadata Http.Response) (room : Nat) : Prop where
  asks (q : Query) (id : String) :
    serve ((requestOf q).labelled id) = .ask (.query q) fun answer =>
      .done (sentFor ((requestOf q).labelled id) (answer.bind (respond q)))
  reads {q : Query} {reply : q.Reply} (hsendable : IsSendable q reply) (id : String) :
    answerTo room q (sentFor ((requestOf q).labelled id) (respond q reply)) = .ok reply

private theorem answerIn_tagged {α : Type} (room : Nat) {form : Json.AnswerForm α}
    {r : Http.Request}
    (hmethod : r.method ≠ "HEAD") {members : List (Points × Json)} {value : α}
    (hfields : form.fields (.obj members) = .valid value) :
    answerIn room form (Http.tagged r (.json 200 members)) = .ok value := by
  have hsent : (Http.tagged r (.json 200 members)).sent = .json (.obj members) := by
    simp [Http.tagged, hmethod, Http.Response.sent, Http.Response.json]
  rw [answerIn, hsent]
  dsimp only [Http.Body.read]
  rw [hfields]

private theorem toSentJson_of_finite {record : FileRecord}
    (h : record.modified.toRat?.isSome = true) :
    record.toSentJson = record.toJson := by
  rw [FileRecord.toSentJson, if_pos h, FileRecord.toJson]

private theorem answerTo_respond (room : Nat) {q : Query} {reply : q.Reply}
    (hsendable : IsSendable q reply)
    (id : String) :
    answerTo room q (sentFor ((requestOf q).labelled id) (respond q reply)) = .ok reply := by
  have hmethod : ((requestOf q).labelled id).method ≠ "HEAD" := by
    cases q <;> simp [Http.Request.labelled, requestOf]
  have hsuccess : ∀ value : Bool,
      Json.successForm.fields (.obj [("success", .bool value)]) = .valid value := by
    intro value
    simp [Json.successForm, Json.need, Json.truth]
  cases q with
  | resolve path =>
    cases reply with
    | some entry =>
      have hread : (fetched room (some path) (sentFor ((requestOf (.resolve path)).labelled id)
          (respond (.resolve path) (some entry)))).bind (answerIn room Json.entryForm) = .ok entry :=
        answerIn_tagged room hmethod (Entry.ofJson_toJson entry)
      rw [answerTo, hread]
    | none => rfl
  | listChildren path =>
    have hfields : Json.childrenForm.fields (.obj [("path", .str path),
        ("children", .arr (reply.map Entry.toJson))]) = .valid reply := by
      have hread := Json.listOf_map Entry.ofJson_toJson reply
      simp [Json.childrenForm, Json.need, Json.text, hread]
    exact answerIn_tagged room hmethod hfields
  | blockLocations path =>
    have hsent := toSentJson_of_finite hsendable
    have hfields : Json.recordForm.fields reply.toSentJson = .valid reply := by
      rw [hsent]
      exact FileRecord.ofJson_toJson reply
    exact answerIn_tagged room hmethod hfields
  | rename source target => exact answerIn_tagged room hmethod (hsuccess reply)
  | mkdirs path => exact answerIn_tagged room hmethod (hsuccess reply)
  | delete path recursive => exact answerIn_tagged room hmethod (hsuccess reply)
  | corruptFiles =>
    have hfields : Json.filesForm.fields (.obj [("files", .arr (reply.map fun (file : String) =>
        .str file))]) = .valid reply := by
      have htext : ∀ file : String, Json.text (.str file) = .valid file := by simp [Json.text]
      have hread := Json.listOf_map htext reply
      simp [Json.filesForm, Json.need, hread]
    exact answerIn_tagged room hmethod hfields

theorem interface_serve (depth serving room : Nat) : Interface (Http.serve depth serving) room where
  asks := Http.serve_query depth serving
  reads := answerTo_respond room

end BlockFsck.Remote
