import ApiCanon.Proofs.Cache.Lasting
import ApiCanon.Proofs.Pipeline.Flights
import ApiCanon.Proofs.Source.Recall

/-!
# Single flight

How often a key is read, over a cache that remembers what it is given (`Pipeline.Remembers`).  The
steps of flights with other keys change nothing in this (`Moves.elsewhere`).

If results come back from the cache, there are two phases.  As long as there is nothing to be found
under the key no flight with the key has come as far as to take a gate off the list; all of them
know the one gate that is listed, so that one at most is at work (`Before`).  Once this one has kept
its result, all others find it at their second look, whichever gates they hold (`After`).  Gates
that are taken off the list while others wait for them do no harm, as this happens in the second
phase only.

If results do not come back, nothing is ever found, and every flight with the key reads for itself
(`Vain`).
-/

namespace ApiCanon

namespace Pipeline

/-! ## Pipelines that remember -/

/-- The cache of a pipeline keeps something, and whatever results the pipeline gives it. -/
def Remembers (m : Records) (p : Pipeline) : Prop := p.cache.Lasts p.resultTtl m

variable {p : Pipeline} {m : Records}

/-- A look finds what the cache keeps, as it comes back, with the origin of the request. -/
lemma cached_remembers (h : p.Remembers m) (now : Timestamp) (key : String) (q : ReadRequest) :
    (p.cached now key q).1 = ((m key).bind ReadResult.reread?).map (·.readFrom q.source.origin?) ∧
      (p.cached now key q).2.Remembers m := by
  obtain ⟨found, next⟩ := Cache.getDecoded_lasts h now key fun v => (ReadResult.decode v).toOption
  exact ⟨congrArg (Option.map fun r : ReadResult => r.readFrom q.source.origin?) found, next⟩

/-- The result of a reading is kept if it is a success. -/
lemma keep_remembers (h : p.Remembers m) (now : Timestamp) (key : String) (r : ReadResult) :
    (p.keep now key r).Remembers
      (if r.succeeded then Function.update m key (some r.written) else m) := by
  unfold keep
  split_ifs
  · exact Cache.setValue_lasts h now key r.toJson
  · exact h

end Pipeline

namespace Flights

variable {p : Pipeline} {requests : List ReadRequest} {s s' : Flights} {now : Timestamp} {n : Nat}
  {key : String} {m : Records}

/-! ## What concerns a key -/

/-- The readings so far of requests with a key. -/
def readingsOf (p : Pipeline) (key : String) (s : Flights) : List (Timestamp × ReadRequest) :=
  s.readings.filter fun v => p.cacheKey? v.2 == some key

lemma readingsOf_append {v : Timestamp × ReadRequest}
    (readings : s'.readings = s.readings ++ [v]) :
    s'.readingsOf p key = s.readingsOf p key ++ if p.cacheKey? v.2 = some key then [v] else [] := by
  rw [readingsOf, readings, List.filter_append]
  by_cases hv : p.cacheKey? v.2 = some key <;> simp [readingsOf, hv]

/-- A step that leaves alone what concerns a key. -/
structure Elsewhere (p : Pipeline) (key : String) (s s' : Flights) : Prop where
  flights : ∀ (i : Nat) (q : ReadRequest) (stage : FlightStage),
    s'.flights[i]? = some ⟨q, some key, stage⟩ ↔ s.flights[i]? = some ⟨q, some key, stage⟩
  gate : s'.gates.get? key = s.gates.get? key
  readings : s'.readingsOf p key = s.readingsOf p key

lemma Elsewhere.of_put {q : ReadRequest} {key? : Option String} {old stage : FlightStage}
    (here : s.flights[n]? = some ⟨q, key?, old⟩) (other : key? ≠ some key)
    (ticket : key? = p.cacheKey? q) (flights : s'.flights = (s.put n stage).flights)
    (gate : s'.gates.get? key = s.gates.get? key)
    (readings : s'.readings = s.readings ∨ ∃ t, s'.readings = s.readings ++ [(t, q)]) :
    Elsewhere p key s s' where
  flights := by
    intro i q' stage'
    rw [flights, getElem?_put here]
    split_ifs with hi
    · have apart (a b : FlightStage) :
          (⟨q, key?, a⟩ : Flight) ≠ ⟨q', some key, b⟩ :=
        fun same => other (congrArg Flight.key? same)
      rw [hi, here]
      exact iff_of_false (fun same => apart _ _ (Option.some.inj same))
        fun same => apart _ _ (Option.some.inj same)
    · exact Iff.rfl
  gate := gate
  readings := by
    rcases readings with same | ⟨t, more⟩
    · rw [readingsOf, same, readingsOf]
    · rw [readingsOf_append more, if_neg (ticket ▸ other), List.append_nil]

/-- A flight with another key, or without one, leaves alone what concerns a key. -/
lemma Moves.elsewhere (serves : Serves p requests s) (remembers : s.pipeline.Remembers m)
    (move : Moves s now n s')
    (other : ∀ q stage, s.flights[n]? ≠ some ⟨q, some key, stage⟩) :
    Elsewhere p key s s' ∧ ∃ m', s'.pipeline.Remembers m' ∧ m' key = m key := by
  cases move with
  | @apart q stage here going =>
    exact ⟨.of_put here nofun (serves.flight here).2 rfl rfl (Or.inr ⟨now, rfl⟩), m, remembers, rfl⟩
  | @turn q key' stage _ here t =>
    have hk : some key' ≠ some key := fun same => other q stage (same ▸ here)
    have ne : key ≠ key' := fun same => hk (congrArg some same.symm)
    have ticket : some key' = p.cacheKey? q := (serves.flight here).2
    have looked := (Pipeline.cached_remembers remembers now key' q).2
    have kept := Pipeline.keep_remembers remembers now key'
    cases t with
    | found => exact ⟨.of_put here hk ticket rfl rfl (Or.inl rfl), m, looked, rfl⟩
    | miss => exact ⟨.of_put here hk ticket rfl rfl (Or.inl rfl), m, looked, rfl⟩
    | take => exact ⟨.of_put here hk ticket rfl rfl (Or.inl rfl), m, remembers, rfl⟩
    | list none =>
      refine ⟨.of_put here hk ticket rfl ?_ (Or.inl rfl), m, remembers, rfl⟩
      rw [put_gates, SortedMap.get?_insert, if_neg ne]
    | enter => exact ⟨.of_put here hk ticket rfl rfl (Or.inl rfl), m, remembers, rfl⟩
    | foundAgain => exact ⟨.of_put here hk ticket rfl rfl (Or.inl rfl), m, looked, rfl⟩
    | begin => exact ⟨.of_put here hk ticket rfl rfl (Or.inr ⟨now, rfl⟩), m, looked, rfl⟩
    | finish => exact ⟨.of_put here hk ticket rfl rfl (Or.inl rfl), m, remembers, rfl⟩
    | @keep gate r =>
      refine ⟨.of_put here hk ticket rfl rfl (Or.inl rfl), _, kept r, ?_⟩
      split_ifs
      · exact Function.update_of_ne ne _ _
      · rfl
    | delist =>
      refine ⟨.of_put here hk ticket rfl ?_ (Or.inl rfl), m, remembers, rfl⟩
      rw [put_gates, SortedMap.get?_erase, if_neg ne]
    | release => exact ⟨.of_put here hk ticket rfl rfl (Or.inl rfl), m, remembers, rfl⟩

end Flights

namespace FlightStage

/-- A reading is under way, or over and not yet kept. -/
def isWorking : FlightStage → Bool
  | reading _ _ | done _ _ => true
  | _ => false

/-- The reading that began at a moment is under way, or over with the result that it has. -/
def Works (reg : Registry) (q : ReadRequest) (t : Timestamp) : FlightStage → Prop
  | reading _ began => began = t
  | done _ r => r = reg.read t q
  | _ => False

/-- Where a flight may be before there is anything to be found under its key: if it knows a gate,
that is the one that is listed. -/
def Early (listed : Option Nat) : FlightStage → Prop
  | arrived | missed => True
  | waiting g | admitted g | reading g _ | done g _ => listed = some g
  | answered _ _ | leaving _ _ | returned _ => False

/-- Where a flight may be once there is something to be found under its key: it does not read, and
its result, if it has one, is fit. -/
def Late (fits : ReadResult → Prop) : FlightStage → Prop
  | arrived | missed | waiting _ | admitted _ => True
  | reading _ _ | done _ _ => False
  | answered _ r | leaving _ r | returned r => fits r

variable {stage : FlightStage} {listed : Option Nat}

lemma Early.of_none (h : stage.Early none) (listed : Option Nat) : stage.Early listed := by
  cases stage <;> trivial

/-- Who works holds the gate that is listed. -/
lemma Early.held (h : stage.Early listed) (works : stage.isWorking = true) :
    stage.held? = listed := by
  cases stage <;> first | exact h.symm | cases works

lemma Early.late (h : stage.Early listed) (idle : stage.isWorking = false)
    (fits : ReadResult → Prop) : stage.Late fits := by
  cases stage <;> trivial

end FlightStage

namespace Flights

variable {p : Pipeline} {requests : List ReadRequest} {s s' : Flights} {now : Timestamp} {n : Nat}
  {key : String} {m : Records} {q : ReadRequest} {old stage : FlightStage}

/-! ## Before there is anything to be found -/

/-- Nothing can be read under a key, and no flight with the key has a result that is kept.  Those
that know a gate know the one that is listed, so that one at most is at work; it has begun the only
reading so far. -/
structure Before (V : Timestamp → Prop) (p : Pipeline) (key : String) (m : Records) (s : Flights) :
    Prop where
  unread : (m key).bind ReadResult.reread? = none
  early : ∀ (i : Nat) (q : ReadRequest) (stage : FlightStage),
    s.flights[i]? = some ⟨q, some key, stage⟩ → stage.Early (s.gates.get? key)
  busy : ∀ (i : Nat) (q : ReadRequest) (stage : FlightStage),
    s.flights[i]? = some ⟨q, some key, stage⟩ → stage.isWorking = true →
      ∃ t, V t ∧ stage.Works p.registry q t ∧ s.readingsOf p key = [(t, q)]
  idle : (∀ (i : Nat) (q : ReadRequest) (stage : FlightStage),
    s.flights[i]? = some ⟨q, some key, stage⟩ → stage.isWorking = false) → s.readingsOf p key = []

variable {V : Timestamp → Prop}

lemma Before.elsewhere (h : Before V p key m s) {m' : Records} (same : m' key = m key)
    (e : Elsewhere p key s s') : Before V p key m' s' where
  unread := by rw [same, h.unread]
  early := fun i q stage hf => by
    rw [e.gate]
    exact h.early i q stage ((e.flights i q stage).1 hf)
  busy := fun i q stage hf works => by
    rw [e.readings]
    exact h.busy i q stage ((e.flights i q stage).1 hf) works
  idle := fun none => by
    rw [e.readings]
    exact h.idle fun i q stage hf => none i q stage ((e.flights i q stage).2 hf)

/-- A flight that holds the gate that is listed is the only one with the key that may be at work. -/
lemma Before.alone (h : Before V p key m s) (exclusive : s.Exclusive)
    (here : s.flights[n]? = some ⟨q, some key, old⟩) {gate : Nat} (held : old.held? = some gate)
    (listed : s.gates.get? key = some gate) {i : Nat} {q' : ReadRequest} {stage' : FlightStage}
    (hf : s.flights[i]? = some ⟨q', some key, stage'⟩) (works : stage'.isWorking = true) : i = n :=
  exclusive i n _ _ gate hf here (((h.early i q' stage' hf).held works).trans listed) held

/-- A flight that neither begins nor ends its work. -/
lemma Before.put (h : Before V p key m s) (here : s.flights[n]? = some ⟨q, some key, old⟩)
    (flights : s'.flights = (s.put n stage).flights)
    (gate : s'.gates.get? key = s.gates.get? key ∨ s.gates.get? key = none)
    (readings : s'.readings = s.readings) (early : stage.Early (s'.gates.get? key))
    (before : old.isWorking = false) (behind : stage.isWorking = false) :
    Before V p key m s' where
  unread := h.unread
  early := by
    intro i q' stage' hf
    rw [flights] at hf
    rcases of_getElem?_put here hf with ⟨-, same⟩ | ⟨-, hf⟩
    · obtain ⟨rfl, -, rfl⟩ := Flight.mk.inj same
      exact early
    · have known := h.early i q' stage' hf
      rcases gate with gate | none
      · rwa [gate]
      · exact (none ▸ known).of_none _
  busy := by
    intro i q' stage' hf works
    rw [flights] at hf
    rcases of_getElem?_put here hf with ⟨-, same⟩ | ⟨-, hf⟩
    · obtain ⟨rfl, -, rfl⟩ := Flight.mk.inj same
      rw [behind] at works
      cases works
    · rw [readingsOf, readings]
      exact h.busy i q' stage' hf works
  idle := by
    intro none
    rw [readingsOf, readings]
    refine h.idle fun i q' stage' hf => ?_
    by_cases hi : i = n
    · subst hi
      obtain ⟨rfl, -, rfl⟩ := Flight.mk.inj (Option.some.inj (here.symm.trans hf))
      exact before
    · refine none i q' stage' ?_
      rw [flights, getElem?_put_of_ne here hi, hf]

/-- A flight that begins to read is the first one. -/
lemma Before.begin (h : Before V p key m s) (exclusive : s.Exclusive) {gate : Nat}
    (here : s.flights[n]? = some ⟨q, some key, .admitted gate⟩) (ticket : p.cacheKey? q = some key)
    (moment : V now) (flights : s'.flights = (s.put n (.reading gate now)).flights)
    (listing : s'.gates = s.gates) (readings : s'.readings = s.readings ++ [(now, q)]) :
    Before V p key m s' := by
  have listed : s.gates.get? key = some gate := h.early n q _ here
  have others : ∀ (i : Nat) (q' : ReadRequest) (stage' : FlightStage),
      s.flights[i]? = some ⟨q', some key, stage'⟩ → stage'.isWorking = false := by
    intro i q' stage' hf
    by_contra works
    have works : stage'.isWorking = true := by simpa using works
    obtain rfl := h.alone exclusive here rfl listed hf works
    obtain ⟨rfl, -, rfl⟩ := Flight.mk.inj (Option.some.inj (here.symm.trans hf))
    cases works
  have first : s'.readingsOf p key = [(now, q)] := by
    rw [readingsOf_append readings, h.idle others, if_pos ticket, List.nil_append]
  refine ⟨h.unread, ?_, ?_, ?_⟩
  · intro i q' stage' hf
    rw [flights] at hf
    rw [listing]
    rcases of_getElem?_put here hf with ⟨-, same⟩ | ⟨-, hf⟩
    · obtain ⟨rfl, -, rfl⟩ := Flight.mk.inj same
      exact listed
    · exact h.early i q' stage' hf
  · intro i q' stage' hf works
    rw [flights] at hf
    rcases of_getElem?_put here hf with ⟨-, same⟩ | ⟨-, hf⟩
    · obtain ⟨rfl, -, rfl⟩ := Flight.mk.inj same
      exact ⟨now, moment, rfl, first⟩
    · rw [others i q' stage' hf] at works
      cases works
  · intro none
    have idle := none n q (.reading gate now) (by rw [flights, getElem?_put_self here])
    cases idle

/-- A flight that is through with reading has the result of the only reading. -/
lemma Before.finish (h : Before V p key m s) {gate : Nat} {began : Timestamp}
    (here : s.flights[n]? = some ⟨q, some key, .reading gate began⟩) :
    Before V p key m (s.put n (.done gate (p.registry.read began q))) := by
  have listed : s.gates.get? key = some gate := h.early n q _ here
  refine ⟨h.unread, ?_, ?_, ?_⟩
  · intro i q' stage' hf
    rcases of_getElem?_put here hf with ⟨-, same⟩ | ⟨-, hf⟩
    · obtain ⟨rfl, -, rfl⟩ := Flight.mk.inj same
      exact listed
    · exact h.early i q' stage' hf
  · intro i q' stage' hf works
    rcases of_getElem?_put here hf with ⟨-, same⟩ | ⟨-, hf⟩
    · obtain ⟨rfl, -, rfl⟩ := Flight.mk.inj same
      obtain ⟨t, moment, rfl, once⟩ := h.busy n q' _ here rfl
      exact ⟨began, moment, rfl, once⟩
    · exact h.busy i q' stage' hf works
  · intro none
    have idle := none n q _ (getElem?_put_self here _)
    cases idle

/-! ## Once there is something to be found -/

/-- The only reading of a key is kept, and comes back as a certain result.  No flight with the key
reads, and those that have a result have this one, but for the place, or have made the reading. -/
structure After (p : Pipeline) (key : String) (m : Records) (s : Flights) (t : Timestamp)
    (q₀ : ReadRequest) (r₀ : ReadResult) : Prop where
  kept : m key = some (p.registry.read t q₀).written
  back : ReadResult.reread? (p.registry.read t q₀).written = some r₀
  once : s.readingsOf p key = [(t, q₀)]
  late : ∀ (i : Nat) (q : ReadRequest) (stage : FlightStage),
    s.flights[i]? = some ⟨q, some key, stage⟩ → stage.Late fun r =>
      r = r₀.readFrom q.source.origin? ∨ q = q₀ ∧ r = p.registry.read t q₀

variable {t : Timestamp} {q₀ : ReadRequest} {r₀ : ReadResult}

lemma After.elsewhere (h : After p key m s t q₀ r₀) {m' : Records} (same : m' key = m key)
    (e : Elsewhere p key s s') : After p key m' s' t q₀ r₀ where
  kept := same.trans h.kept
  back := h.back
  once := e.readings.trans h.once
  late := fun i q stage hf => h.late i q stage ((e.flights i q stage).1 hf)

/-- A flight that moves on, without a reading. -/
lemma After.put (h : After p key m s t q₀ r₀) (here : s.flights[n]? = some ⟨q, some key, old⟩)
    (flights : s'.flights = (s.put n stage).flights) (readings : s'.readings = s.readings)
    (late : stage.Late fun r =>
      r = r₀.readFrom q.source.origin? ∨ q = q₀ ∧ r = p.registry.read t q₀) :
    After p key m s' t q₀ r₀ where
  kept := h.kept
  back := h.back
  once := by rw [readingsOf, readings, ← h.once, readingsOf]
  late := by
    intro i q' stage' hf
    rw [flights] at hf
    rcases of_getElem?_put here hf with ⟨-, same⟩ | ⟨-, hf⟩
    · obtain ⟨rfl, -, rfl⟩ := Flight.mk.inj same
      exact late
    · exact h.late i q' stage' hf

/-- What is found is the result that is kept. -/
lemma After.found (h : After p key m s t q₀ r₀) (remembers : s.pipeline.Remembers m)
    (q : ReadRequest) (now : Timestamp) :
    (s.pipeline.cached now key q).1 = some (r₀.readFrom q.source.origin?) := by
  rw [(Pipeline.cached_remembers remembers now key q).1, h.kept, Option.bind_some, h.back,
    Option.map_some]

theorem After.turn (h : After p key m s t q₀ r₀) (remembers : s.pipeline.Remembers m)
    (here : s.flights[n]? = some ⟨q, some key, old⟩) (move : Turn s now n q key old s') :
    s'.pipeline.Remembers m ∧ After p key m s' t q₀ r₀ := by
  have looked := (Pipeline.cached_remembers remembers now key q).2
  have found := h.found remembers q now
  have stands := h.late n q _ here
  cases move with
  | found hit =>
    obtain rfl := Option.some.inj (hit.symm.trans found)
    exact ⟨looked, h.put here rfl rfl (Or.inl rfl)⟩
  | miss none =>
    rw [found] at none
    cases none
  | take => exact ⟨remembers, h.put here rfl rfl trivial⟩
  | list => exact ⟨remembers, h.put here rfl rfl trivial⟩
  | enter => exact ⟨remembers, h.put here rfl rfl trivial⟩
  | foundAgain hit =>
    obtain rfl := Option.some.inj (hit.symm.trans found)
    exact ⟨looked, h.put here rfl rfl (Or.inl rfl)⟩
  | begin none =>
    rw [found] at none
    cases none
  | finish => exact stands.elim
  | keep => exact stands.elim
  | delist => exact ⟨remembers, h.put here rfl rfl stands⟩
  | release => exact ⟨remembers, h.put here rfl rfl stands⟩

/-- A flight that keeps its result, which comes back, is the one that made the only reading. -/
lemma Before.keep (h : Before V p key m s) (exclusive : s.Exclusive) (s' : Flights) {gate : Nat}
    {r : ReadResult} (here : s.flights[n]? = some ⟨q, some key, .done gate r⟩)
    (flights : s'.flights = (s.put n (.answered gate r)).flights)
    (readings : s'.readings = s.readings)
    (back : ∀ t, V t → (p.registry.read t q).succeeded = true ∧
      (ReadResult.reread? (p.registry.read t q).written).isSome = true) :
    r.succeeded = true ∧
      ∃ t r₀, V t ∧ After p key (Function.update m key (some r.written)) s' t q r₀ := by
  have listed : s.gates.get? key = some gate := h.early n q _ here
  obtain ⟨t, moment, works, once⟩ := h.busy n q _ here rfl
  obtain rfl : r = p.registry.read t q := works
  obtain ⟨succeeded, found⟩ := back t moment
  obtain ⟨r₀, back⟩ := Option.isSome_iff_exists.1 found
  refine ⟨succeeded, t, r₀, moment, Function.update_self _ _ _, back, ?_, ?_⟩
  · rw [readingsOf, readings, ← once, readingsOf]
  intro i q' stage' hf
  rw [flights] at hf
  rcases of_getElem?_put here hf with ⟨-, same⟩ | ⟨hi, hf⟩
  · obtain ⟨rfl, -, rfl⟩ := Flight.mk.inj same
    exact Or.inr ⟨rfl, rfl⟩
  · refine (h.early i q' stage' hf).late ?_ _
    by_contra works
    exact hi (h.alone exclusive here rfl listed hf (by simpa using works))

theorem Before.turn (h : Before V p key m s) (exclusive : s.Exclusive)
    (remembers : s.pipeline.Remembers m) (registry : s.pipeline.registry = p.registry)
    (ticket : p.cacheKey? q = some key) (moment : V now)
    (back : ∀ t, V t → (p.registry.read t q).succeeded = true ∧
      (ReadResult.reread? (p.registry.read t q).written).isSome = true)
    (here : s.flights[n]? = some ⟨q, some key, old⟩) (move : Turn s now n q key old s') :
    ∃ m', s'.pipeline.Remembers m' ∧
      (Before V p key m' s' ∨ ∃ t r₀, V t ∧ After p key m' s' t q r₀) := by
  have looked := (Pipeline.cached_remembers remembers now key q).2
  have nothing : (s.pipeline.cached now key q).1 = none := by
    rw [(Pipeline.cached_remembers remembers now key q).1, h.unread]
    rfl
  have stands := h.early n q _ here
  cases move with
  | found hit =>
    rw [nothing] at hit
    cases hit
  | miss => exact ⟨m, looked, Or.inl (h.put here rfl (Or.inl rfl) rfl trivial rfl rfl)⟩
  | take listed => exact ⟨m, remembers, Or.inl (h.put here rfl (Or.inl rfl) rfl listed rfl rfl)⟩
  | list none =>
    refine ⟨m, remembers, Or.inl (h.put here rfl (Or.inr none) rfl ?_ rfl rfl)⟩
    exact SortedMap.get?_insert_self _ _ _
  | enter => exact ⟨m, remembers, Or.inl (h.put here rfl (Or.inl rfl) rfl stands rfl rfl)⟩
  | foundAgain hit =>
    rw [nothing] at hit
    cases hit
  | begin => exact ⟨m, looked, Or.inl (h.begin exclusive here ticket moment rfl rfl rfl)⟩
  | finish =>
    rw [registry]
    exact ⟨m, remembers, Or.inl (h.finish here)⟩
  | @keep gate r =>
    have kept := Pipeline.keep_remembers remembers now key r
    obtain ⟨succeeded, t, r₀, moment, after⟩ :=
      h.keep exclusive ({ s with pipeline := s.pipeline.keep now key r }.put n (.answered gate r))
        here rfl rfl back
    rw [if_pos succeeded] at kept
    exact ⟨_, kept, Or.inr ⟨t, r₀, moment, after⟩⟩
  | delist => exact stands.elim
  | release => exact stands.elim

/-! ## Schedules -/

/-- Either there is nothing to be found under a key yet, or there has been one reading. -/
def Single (V : Timestamp → Prop) (p : Pipeline) (requests : List ReadRequest) (key : String)
    (s : Flights) : Prop :=
  ∃ m, s.pipeline.Remembers m ∧ (Before V p key m s ∨
    ∃ t q r, V t ∧ q ∈ requests ∧ After p key m s t q r)

/-- The results of all requests with a key are successes and come back. -/
def Lasting (V : Timestamp → Prop) (p : Pipeline) (requests : List ReadRequest) (key : String) :
    Prop :=
  ∀ q ∈ requests, p.cacheKey? q = some key → ∀ t, V t →
    (p.registry.read t q).succeeded = true ∧
      (ReadResult.reread? (p.registry.read t q).written).isSome = true

lemma start_single (remembers : p.Remembers m) (unread : (m key).bind ReadResult.reread? = none) :
    Single V p requests key (start p requests) := by
  refine ⟨m, remembers, Or.inl ⟨unread, ?_, ?_, fun _ => rfl⟩⟩
  · intro i q stage hf
    obtain rfl : stage = .arrived := stage_of_start hf
    trivial
  · intro i q stage hf works
    obtain rfl : stage = .arrived := stage_of_start hf
    cases works

/-- **Every step keeps it to one reading.** -/
theorem Single.moves (h : Single V p requests key s) (serves : Serves p requests s)
    (exclusive : s.Exclusive) (lasting : Lasting V p requests key) (moment : V now)
    (move : Moves s now n s') : Single V p requests key s' := by
  obtain ⟨m, remembers, stands⟩ := h
  by_cases mine : ∃ q stage, s.flights[n]? = some ⟨q, some key, stage⟩
  · obtain ⟨q, stage, here⟩ := mine
    obtain ⟨asked, ticket⟩ := serves.flight here
    have turn := move.turn_of_key here
    rcases stands with before | ⟨t, q₀, r₀, valid, asked', after⟩
    · obtain ⟨m', remembers', before | ⟨t, r₀, valid, after⟩⟩ :=
        before.turn exclusive remembers serves.registry ticket.symm moment
          (lasting q (List.mem_of_getElem? asked) ticket.symm) here turn
      · exact ⟨m', remembers', Or.inl before⟩
      · exact ⟨m', remembers', Or.inr ⟨t, q, r₀, valid, List.mem_of_getElem? asked, after⟩⟩
    · obtain ⟨remembers', after'⟩ := after.turn remembers here turn
      exact ⟨m, remembers', Or.inr ⟨t, q₀, r₀, valid, asked', after'⟩⟩
  · obtain ⟨elsewhere, m', remembers', same⟩ :=
      move.elsewhere serves remembers fun q stage here => mine ⟨q, stage, here⟩
    refine ⟨m', remembers', ?_⟩
    rcases stands with before | ⟨t, q₀, r₀, valid, asked, after⟩
    · exact Or.inl (before.elsewhere same elsewhere)
    · exact Or.inr ⟨t, q₀, r₀, valid, asked, after.elsewhere same elsewhere⟩

theorem single_of_follow? {steps : List (Timestamp × Nat)} (remembers : p.Remembers m)
    (unread : (m key).bind ReadResult.reread? = none) (lasting : Lasting V p requests key)
    (moments : ∀ v ∈ steps, V v.1) (run : (start p requests).follow? steps = some s) :
    Single V p requests key s := by
  have kept := follow_keeps (P := fun s => Sound p requests s ∧ Single V p requests key s)
    (fun v hv s s' h move => ⟨h.1.moves move,
      h.2.moves h.1.serves h.1.exclusive lasting (moments v hv) move⟩)
    ⟨start_sound p requests, start_single remembers unread⟩ run
  exact kept.2

/-- When all flights have returned, a key that was asked for has been read once, and every flight
with the key has the result of this reading, as it is or as it comes back. -/
lemma Single.over (h : Single V p requests key s) (serves : Serves p requests s)
    (ended : s.isOver = true) (asked : ∃ q ∈ requests, p.cacheKey? q = some key) :
    ∃ t q₀ r₀, V t ∧ q₀ ∈ requests ∧ s.readingsOf p key = [(t, q₀)] ∧
      ReadResult.reread? (p.registry.read t q₀).written = some r₀ ∧
      ∀ f ∈ s.flights, f.key? = some key → ∃ r, f.stage = .returned r ∧
        (r = r₀.readFrom f.request.source.origin? ∨
          f.request = q₀ ∧ r = p.registry.read t q₀) := by
  obtain ⟨m, remembers, before | ⟨t, q₀, r₀, valid, asked', after⟩⟩ := h
  · obtain ⟨q, hq, hk⟩ := asked
    obtain ⟨i, hi⟩ := List.mem_iff_getElem?.1 hq
    obtain ⟨stage, hf⟩ := serves.exists_flight hi
    rw [hk] at hf
    obtain ⟨r, hr⟩ := exists_result ended (List.mem_of_getElem? hf)
    obtain rfl : stage = .returned r := hr
    exact (before.early i q _ hf).elim
  · refine ⟨t, q₀, r₀, valid, asked', after.once, after.back, fun f hf hk => ?_⟩
    obtain ⟨i, hi⟩ := List.mem_iff_getElem?.1 hf
    obtain ⟨r, hr⟩ := exists_result ended hf
    obtain ⟨q, key?, stage⟩ := f
    obtain rfl : key? = some key := hk
    obtain rfl : stage = .returned r := hr
    exact ⟨r, rfl, after.late i q _ hi⟩

end Flights

namespace FlightStage

/-- A reading has begun, or the result of another one has been found. -/
def hasBegun : FlightStage → Bool
  | reading _ _ | done _ _ | answered _ _ | leaving _ _ | returned _ => true
  | arrived | missed | waiting _ | admitted _ => false

/-- The result, if there is one, is fit. -/
def Has (fits : ReadResult → Prop) : FlightStage → Prop
  | arrived | missed | waiting _ | admitted _ | reading _ _ => True
  | done _ r | answered _ r | leaving _ r | returned r => fits r

end FlightStage

namespace Flights

variable {p : Pipeline} {requests : List ReadRequest} {s s' : Flights} {now : Timestamp} {n : Nat}
  {key : String} {m : Records} {q : ReadRequest} {old stage : FlightStage}

/-! ## Results that do not come back -/

/-- The number of flights with a key that have begun to read. -/
def begunFor (key : String) (s : Flights) : Nat :=
  s.flights.countP fun f => f.key? == some key && f.stage.hasBegun

/-- Nothing can be read under a key, and every flight with the key has read for itself. -/
structure Vain (p : Pipeline) (key : String) (m : Records) (s : Flights) : Prop where
  unread : (m key).bind ReadResult.reread? = none
  own : ∀ (i : Nat) (q : ReadRequest) (stage : FlightStage),
    s.flights[i]? = some ⟨q, some key, stage⟩ → stage.Has fun r => ∃ t, r = p.registry.read t q
  count : (s.readingsOf p key).length = s.begunFor key

/-- The results of all requests with a key do not come back. -/
def Fleeting (p : Pipeline) (requests : List ReadRequest) (key : String) : Prop :=
  ∀ q ∈ requests, p.cacheKey? q = some key → ∀ t,
    ReadResult.reread? (p.registry.read t q).written = none

/-- A flight of which the stage changes, with what this does to the readings. -/
lemma Vain.put {m' : Records} (h : Vain p key m s)
    (here : s.flights[n]? = some ⟨q, some key, old⟩)
    (flights : s'.flights = (s.put n stage).flights)
    (own : stage.Has fun r => ∃ t, r = p.registry.read t q)
    (readings : (s'.readingsOf p key).length + (if old.hasBegun then 1 else 0) =
      (s.readingsOf p key).length + if stage.hasBegun then 1 else 0)
    (unread : (m' key).bind ReadResult.reread? = none) : Vain p key m' s' where
  unread := unread
  own := by
    intro i q' stage' hf
    rw [flights] at hf
    rcases of_getElem?_put here hf with ⟨-, same⟩ | ⟨-, hf⟩
    · obtain ⟨rfl, -, rfl⟩ := Flight.mk.inj same
      exact own
    · exact h.own i q' stage' hf
  count := by
    have counted := countP_put here stage fun f => f.key? == some key && f.stage.hasBegun
    simp only [beq_self_eq_true, Bool.true_and] at counted
    rw [h.count, begunFor] at readings
    rw [begunFor, flights]
    omega

theorem Vain.turn (h : Vain p key m s) (remembers : s.pipeline.Remembers m)
    (registry : s.pipeline.registry = p.registry) (ticket : p.cacheKey? q = some key)
    (fleeting : ∀ t, ReadResult.reread? (p.registry.read t q).written = none)
    (here : s.flights[n]? = some ⟨q, some key, old⟩) (move : Turn s now n q key old s') :
    ∃ m', s'.pipeline.Remembers m' ∧ Vain p key m' s' := by
  have looked := (Pipeline.cached_remembers remembers now key q).2
  have nothing : (s.pipeline.cached now key q).1 = none := by
    rw [(Pipeline.cached_remembers remembers now key q).1, h.unread]
    rfl
  have own := h.own n q _ here
  cases move with
  | found hit =>
    rw [nothing] at hit
    cases hit
  | miss => exact ⟨m, looked, h.put here rfl trivial rfl h.unread⟩
  | take => exact ⟨m, remembers, h.put here rfl trivial rfl h.unread⟩
  | list => exact ⟨m, remembers, h.put here rfl trivial rfl h.unread⟩
  | enter => exact ⟨m, remembers, h.put here rfl trivial rfl h.unread⟩
  | foundAgain hit =>
    rw [nothing] at hit
    cases hit
  | begin =>
    refine ⟨m, looked, h.put here rfl trivial ?_ h.unread⟩
    rw [readingsOf_append rfl, if_pos ticket, List.length_append]
    rfl
  | @finish gate began =>
    exact ⟨m, remembers, h.put here rfl ⟨began, by rw [registry]⟩ rfl h.unread⟩
  | @keep gate r =>
    refine ⟨_, Pipeline.keep_remembers remembers now key r, h.put here rfl own rfl ?_⟩
    split_ifs
    · obtain ⟨t, rfl⟩ := own
      rw [Function.update_self]
      exact fleeting t
    · exact h.unread
  | delist => exact ⟨m, remembers, h.put here rfl own rfl h.unread⟩
  | release => exact ⟨m, remembers, h.put here rfl own rfl h.unread⟩

/-- A flight with another key, or without one, does not count for a key. -/
lemma Moves.begunFor_eq (move : Moves s now n s')
    (other : ∀ q stage, s.flights[n]? ≠ some ⟨q, some key, stage⟩) :
    s'.begunFor key = s.begunFor key := by
  obtain ⟨q, key?, old, stage, here, flights⟩ := move.exists_put
  have apart : (key? == some key) = false :=
    beq_false_of_ne fun same => other q old (same ▸ here)
  have counted := countP_put here stage fun f => f.key? == some key && f.stage.hasBegun
  simp only [apart, Bool.false_and, Bool.false_eq_true, if_false, Nat.add_zero] at counted
  rw [begunFor, flights, counted, begunFor]

/-- **Every step leaves every flight with the key to read for itself.** -/
theorem Vain.moves (h : ∃ m, s.pipeline.Remembers m ∧ Vain p key m s) (serves : Serves p requests s)
    (fleeting : Fleeting p requests key) (move : Moves s now n s') :
    ∃ m, s'.pipeline.Remembers m ∧ Vain p key m s' := by
  obtain ⟨m, remembers, vain⟩ := h
  by_cases mine : ∃ q stage, s.flights[n]? = some ⟨q, some key, stage⟩
  · obtain ⟨q, stage, here⟩ := mine
    obtain ⟨asked, ticket⟩ := serves.flight here
    exact vain.turn remembers serves.registry ticket.symm
      (fleeting q (List.mem_of_getElem? asked) ticket.symm) here (move.turn_of_key here)
  · have other : ∀ q stage, s.flights[n]? ≠ some ⟨q, some key, stage⟩ :=
      fun q stage here => mine ⟨q, stage, here⟩
    obtain ⟨elsewhere, m', remembers', same⟩ := move.elsewhere serves remembers other
    refine ⟨m', remembers', ?_, ?_, ?_⟩
    · rw [same, vain.unread]
    · exact fun i q stage hf => vain.own i q stage ((elsewhere.flights i q stage).1 hf)
    · rw [elsewhere.readings, vain.count, move.begunFor_eq other]

lemma start_vain (p : Pipeline) (requests : List ReadRequest) (key : String)
    (unread : (m key).bind ReadResult.reread? = none) : Vain p key m (start p requests) where
  unread := unread
  own := by
    intro i q stage hf
    obtain rfl : stage = .arrived := stage_of_start hf
    trivial
  count := by
    have none : (start p requests).begunFor key = 0 := by
      refine List.countP_eq_zero.2 fun f hf => ?_
      obtain ⟨q, -, rfl⟩ := List.mem_map.1 hf
      simp [FlightStage.hasBegun]
    rw [none]
    rfl

/-- When all flights have returned, every flight with the key has read for itself. -/
lemma vain_of_follow? {steps : List (Timestamp × Nat)} (remembers : p.Remembers m)
    (unread : (m key).bind ReadResult.reread? = none) (fleeting : Fleeting p requests key)
    (run : (start p requests).follow? steps = some s) (ended : s.isOver = true) :
    (s.readingsOf p key).length = requests.countP (fun q => p.cacheKey? q == some key) ∧
      ∀ f ∈ s.flights, f.key? = some key →
        ∃ t, f.stage = .returned (p.registry.read t f.request) := by
  obtain ⟨sound, m', -, vain⟩ := follow_keeps
    (P := fun s => Sound p requests s ∧ ∃ m, s.pipeline.Remembers m ∧ Vain p key m s)
    (fun v _ s s' h move => ⟨h.1.moves move, Vain.moves h.2 h.1.serves fleeting move⟩)
    ⟨start_sound p requests, m, remembers, start_vain p requests key unread⟩ run
  refine ⟨?_, fun f hf hk => ?_⟩
  · rw [vain.count, begunFor]
    have asked : requests.countP (fun q => p.cacheKey? q == some key) =
        s.tickets.countP fun v => v.2 == some key := by
      rw [sound.serves.tickets, List.countP_map]
      rfl
    rw [asked, tickets, List.countP_map]
    refine List.countP_congr fun f hf => ?_
    obtain ⟨r, hr⟩ := exists_result ended hf
    simp [hr, FlightStage.hasBegun]
  · obtain ⟨r, hr⟩ := exists_result ended hf
    obtain ⟨i, hi⟩ := List.mem_iff_getElem?.1 hf
    obtain ⟨q, key?, stage⟩ := f
    obtain rfl : key? = some key := hk
    obtain rfl : stage = .returned r := hr
    obtain ⟨t, rfl⟩ := vain.own i q _ hi
    exact ⟨t, rfl⟩

end Flights

end ApiCanon
