import BlockFsck.Disturbance
import BlockFsck.Http.Api
import BlockFsck.Remote.Client

/-!
# Transports

Two ends for the wire: a script that holds the outcome of each request, and the HTTP interface of
a namespace, some of whose requests may be answered by a script instead. Both record what passes.
-/

namespace BlockFsck.Remote

/-- The outcome of one request. -/
abbrev Delivery := Except NetworkError Http.Response

/-- What has passed over the wire. -/
structure Traffic where
  requests : List Addressed := []
  pauses : List Double := []
  log : List LogRecord := []
  ids : Nat := 0

/-- Answers requests by `deliver`, and records them with the pauses and log records. -/
def answering {σ : Type} (deliver : Addressed → σ → Delivery × σ) :
    (q : WireRequest) → StateM (σ × Traffic) (Wire.Answer q)
  | .send r => fun (s, traffic) =>
    let (delivery, s) := deliver r s
    (delivery, s, { traffic with requests := traffic.requests ++ [r] })
  | .pause seconds => fun (s, traffic) =>
    ((), s, { traffic with pauses := traffic.pauses ++ [seconds] })
  | .log record => fun (s, traffic) =>
    ((), s, { traffic with log := traffic.log ++ [record] })
  | .freshId => fun (s, traffic) =>
    let n := traffic.ids + 1
    (s!"rid-{n}", s, { traffic with ids := n })

/-- The next outcome of a script. -/
def nextOf (script : List Delivery) : Delivery × List Delivery :=
  match script with
  | [] => (.error (.broken (.told .unexpected "script exhausted")), [])
  | delivery :: rest => (delivery, rest)

/-- Runs a program with the outcomes of a script. -/
def runScripted {α : Type} (p : Program Wire α) (script : List Delivery) (traffic : Traffic) :
    α × List Delivery × Traffic :=
  p.run (answering fun _ script => nextOf script) (script, traffic)

/-- A namespace behind its HTTP interface, and the outcomes that come instead of its answers. -/
structure Served where
  disturbed : Disturbed
  script : List (Option Delivery) := []

/-- The outcome of a request that `serve` answers. -/
def Served.deliverBy (serve : Http.Request → Program Metadata Http.Response) (r : Addressed)
    (s : Served) : Delivery × Served :=
  match s.script with
  | some delivery :: rest => (delivery, { s with script := rest })
  | script =>
    let (response, disturbed) := Disturbed.run (serve (r.request.at r.address)) s.disturbed
    (.ok response, ⟨disturbed, script.tail⟩)

def Served.deliver (depth room : Nat) : Addressed → Served → Delivery × Served :=
  deliverBy (Http.serve depth room)

/-- Runs a program against an interface of a namespace. -/
def runServedBy {α : Type} (serve : Http.Request → Program Metadata Http.Response)
    (p : Program Wire α) (s : Served) : α × Served × Traffic :=
  p.run (answering (Served.deliverBy serve)) (s, {})

def runServed {α : Type} (depth room : Nat) (p : Program Wire α) (s : Served) :
    α × Served × Traffic :=
  runServedBy (Http.serve depth room) p s

end BlockFsck.Remote
