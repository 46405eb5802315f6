import ScriptEngine.Session.Basic

namespace ScriptEngine

/-- What a step came to, what callbacks logged, and the state of the thread if it is news. -/
structure StepReport where
  result : Except StepFailure Datum
  log : List Datum
  /-- Given if it differs from what was told last. -/
  state : Option Datum
  /-- How the report writes what depends on where the engine runs. -/
  naming : Naming

namespace Session

/-- Notes where isolates have their code now. -/
def notePlaces (s : Session) : Session :=
  let note (places : Table IsolateId CodePlaces) (r : Resident) : Table IsolateId CodePlaces :=
    places.put r.isolate.id (((places.lookup r.isolate.id).getD {}).update r.isolate)
  { s with places := s.engine.residents.foldl note s.places }

/-- Takes the events of all isolates. -/
def takeEvents (s : Session) : List Event × Session :=
  let quiet (r : Resident) : Resident := { r with isolate := { r.isolate with events := [] } }
  (s.engine.residents.flatMap (·.isolate.events),
    { s with engine := { s.engine with residents := s.engine.residents.map quiet } })

/-- The state of a thread, if it is attached to the isolate of the site. -/
def stateAt (s : Session) (site : Site) : Datum :=
  inspect (((s.isolateNamed? site.isolate).bind (·.thread? site.thread)).map (·.top.survey))

/-- Tells a state if it is news. -/
def tell (s : Session) (state : Datum) : Option Datum × Session :=
  if s.told == some state then (none, s) else (some state, { s with told := some state })

/-- Runs a step. Only a session that is watched tells the state of threads. -/
def run (s : Session) (site : Site) (watched : Bool) (step : SessionM Datum) :
    StepReport × Session :=
  let (result, s) := ((step.run site).run).run s
  let (events, s) := s.notePlaces.takeEvents
  let naming := s.naming site.isolate
  let log := events.map fun e => (e.datum naming).spell naming.address
  let (state, s) := if watched then s.tell ((s.stateAt site).spell naming.address) else (none, s)
  ({ result := result.map (·.spell naming.address), log, state, naming }, s)

end Session

end ScriptEngine
