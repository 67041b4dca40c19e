import ApiCanon.Pipeline.Basic

/-!
# Readings at a time

Several requests may be read through one pipeline at a time.  A **flight** is one of these
readings.  It takes its steps one by one, and the steps of other flights may come in between.
Which flight goes next, and at what moment, is no part of the flights: a schedule is a list of
moments with the numbers of the flights that go then.

A flight without a key reads for itself.  Any other one looks into the cache and, if it finds
nothing there, takes the **gate** that is listed for its key, or lists a new one.  It waits until
nobody holds the gate, holds it, and looks into the cache again.  Only then does it read, and keeps
the result if it is a success.  At the end it takes the gate of its key off the list, whichever it
is by then, and lets go of its own.
-/

namespace ApiCanon

/-- How far a flight has come. -/
inductive FlightStage where
  | arrived
  /-- The cache had nothing at the first look. -/
  | missed
  | waiting (gate : Nat)
  /-- The gate is held, and the cache is to be looked into again. -/
  | admitted (gate : Nat)
  | reading (gate : Nat) (began : Timestamp)
  /-- The result of a reading is at hand, and is to be kept if it is a success. -/
  | done (gate : Nat) (r : ReadResult)
  /-- The gate of the key is to be taken off the list. -/
  | answered (gate : Nat) (r : ReadResult)
  /-- The gate that is held is to be let go of. -/
  | leaving (gate : Nat) (r : ReadResult)
  | returned (r : ReadResult)
  deriving Inhabited

namespace FlightStage

/-- The gate that is held. -/
def held? : FlightStage → Option Nat
  | admitted g | reading g _ | done g _ | answered g _ | leaving g _ => some g
  | arrived | missed | waiting _ | returned _ => none

/-- The result of a flight that has returned. -/
def result? : FlightStage → Option ReadResult
  | returned r => some r
  | _ => none

/-- Whether a reader is at work. -/
def isReading : FlightStage → Bool
  | reading _ _ => true
  | _ => false

end FlightStage

/-- A request that is read, the key under which its result is kept, if any, and how far its flight
has come. -/
structure Flight where
  request : ReadRequest
  key? : Option String
  stage : FlightStage
  deriving Inhabited

/-- Flights through one pipeline, known by their numbers. -/
structure Flights where
  pipeline : Pipeline
  /-- The gate that is listed for a key. -/
  gates : SortedMap Nat
  /-- How many gates there have been. -/
  made : Nat
  flights : List Flight
  /-- What has been read so far, and when each reading began. -/
  readings : List (Timestamp × ReadRequest)

namespace Pipeline

/-- Keeps the result of a reading if it is a success. -/
def keep (now : Timestamp) (key : String) (r : ReadResult) (p : Pipeline) : Pipeline :=
  if r.succeeded then { p with cache := p.cache.setValue now key r.toJson p.resultTtl } else p

end Pipeline

namespace Flights

/-- The flights of some requests before their first steps. -/
def start (p : Pipeline) (requests : List ReadRequest) : Flights :=
  ⟨p, .empty, 0, requests.map fun q => ⟨q, p.cacheKey? q, .arrived⟩, []⟩

/-- Whether all flights have returned. -/
def isOver (s : Flights) : Bool := s.flights.all fun f => f.stage.result?.isSome

/-- Whether some flight holds a gate. -/
def isHeld (gate : Nat) (s : Flights) : Bool := s.flights.any fun f => f.stage.held? == some gate

/-- A flight at a new stage. -/
def put (number : Nat) (stage : FlightStage) (s : Flights) : Flights :=
  { s with flights := s.flights.modify number fun f => { f with stage := stage } }

/-- A flight of which the request is not kept reads for itself. -/
def readApart (now : Timestamp) (number : Nat) (q : ReadRequest) (s : Flights) : Flights :=
  { s with readings := s.readings ++ [(now, q)] }.put number
    (.returned (s.pipeline.registry.read now q))

/-- The first look into the cache. -/
def look (now : Timestamp) (number : Nat) (key : String) (q : ReadRequest) (s : Flights) :
    Flights :=
  let (hit, p) := s.pipeline.cached now key q
  { s with pipeline := p }.put number <|
    match hit with
    | some r => .returned r
    | none => .missed

/-- Takes the gate of a key, which is a new one if none is listed. -/
def takeGate (number : Nat) (key : String) (s : Flights) : Flights :=
  match s.gates.get? key with
  | some gate => s.put number (.waiting gate)
  | none =>
    { s with gates := s.gates.insert key s.made, made := s.made + 1 }.put number (.waiting s.made)

/-- The second look into the cache, with a reading if nothing is found. -/
def lookAgain (now : Timestamp) (number : Nat) (key : String) (q : ReadRequest) (gate : Nat)
    (s : Flights) : Flights :=
  match s.pipeline.cached now key q with
  | (some r, p) => { s with pipeline := p }.put number (.answered gate r)
  | (none, p) =>
    { s with pipeline := p, readings := s.readings ++ [(now, q)] }.put number (.reading gate now)

/-- The next step of a flight, unless it has returned or must wait. -/
def step? (now : Timestamp) (number : Nat) (s : Flights) : Option Flights :=
  match s.flights[number]? with
  | none => none
  | some ⟨q, key?, stage⟩ =>
    match key?, stage with
    | _, .returned _ => none
    | none, _ => some (s.readApart now number q)
    | some key, .arrived => some (s.look now number key q)
    | some key, .missed => some (s.takeGate number key)
    | some _, .waiting gate => if s.isHeld gate then none else some (s.put number (.admitted gate))
    | some key, .admitted gate => some (s.lookAgain now number key q gate)
    | some _, .reading gate began =>
      some (s.put number (.done gate (s.pipeline.registry.read began q)))
    | some key, .done gate r =>
      some ({ s with pipeline := s.pipeline.keep now key r }.put number (.answered gate r))
    | some key, .answered gate r =>
      some ({ s with gates := s.gates.erase key }.put number (.leaving gate r))
    | some _, .leaving _ r => some (s.put number (.returned r))

/-- Takes the steps of a schedule one after another. -/
def follow? (s : Flights) : List (Timestamp × Nat) → Option Flights
  | [] => some s
  | (now, number) :: rest => (s.step? now number).bind (·.follow? rest)

end Flights

end ApiCanon
