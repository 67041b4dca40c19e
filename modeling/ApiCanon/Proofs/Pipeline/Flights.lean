import ApiCanon.Pipeline.Flights
import ApiCanon.Proofs.Collection.SortedMap
import Mathlib.Algebra.Ring.Nat
import Mathlib.Data.List.Nodup
import Mathlib.Logic.Relation
import Mathlib.Tactic.Lemma

/-!
# Schedules of readings

What every schedule of flights keeps, whatever the cache does and whatever is read.  What a
flight does next depends on its stage (`Turn`), and the steps are these moves
(`step?_eq_some_iff`).  At any time no gate is held
twice (`Exclusive`), and for every gate that is listed there is a flight that will take it off the
list (`Awaited`), so that none is left in the end.

No schedule goes on for ever: a flight has eight steps at most (`length_le_of_follow?`).  And none
gets stuck: as long as a flight has not returned some flight can go on (`isOver_or_moves`), as one
that holds a gate waits for nothing.

A flight that nobody disturbs reads as the pipeline does (`exists_alone`), and one flight after
another reads as several sources are read (`readMany_follows`).
-/

namespace ApiCanon

namespace Flights

/-! ## Moves -/

/-- What the next step of a flight with a key can do, from the stage where it stands. -/
inductive Turn (s : Flights) (now : Timestamp) (n : Nat) (q : ReadRequest) (key : String) :
    FlightStage → Flights → Prop
  | found {r : ReadResult} (hit : (s.pipeline.cached now key q).1 = some r) :
      Turn s now n q key .arrived
        ({ s with pipeline := (s.pipeline.cached now key q).2 }.put n (.returned r))
  | miss (none : (s.pipeline.cached now key q).1 = none) :
      Turn s now n q key .arrived
        ({ s with pipeline := (s.pipeline.cached now key q).2 }.put n .missed)
  | take {gate : Nat} (listed : s.gates.get? key = some gate) :
      Turn s now n q key .missed (s.put n (.waiting gate))
  | list (none : s.gates.get? key = none) :
      Turn s now n q key .missed
        ({ s with gates := s.gates.insert key s.made, made := s.made + 1 }.put n
          (.waiting s.made))
  | enter {gate : Nat} (free : ∀ f ∈ s.flights, f.stage.held? ≠ some gate) :
      Turn s now n q key (.waiting gate) (s.put n (.admitted gate))
  | foundAgain {gate : Nat} {r : ReadResult} (hit : (s.pipeline.cached now key q).1 = some r) :
      Turn s now n q key (.admitted gate)
        ({ s with pipeline := (s.pipeline.cached now key q).2 }.put n (.answered gate r))
  | begin {gate : Nat} (none : (s.pipeline.cached now key q).1 = none) :
      Turn s now n q key (.admitted gate)
        ({ s with
          pipeline := (s.pipeline.cached now key q).2
          readings := s.readings ++ [(now, q)] }.put n (.reading gate now))
  | finish {gate : Nat} {began : Timestamp} :
      Turn s now n q key (.reading gate began)
        (s.put n (.done gate (s.pipeline.registry.read began q)))
  | keep {gate : Nat} {r : ReadResult} :
      Turn s now n q key (.done gate r)
        ({ s with pipeline := s.pipeline.keep now key r }.put n (.answered gate r))
  | delist {gate : Nat} {r : ReadResult} :
      Turn s now n q key (.answered gate r)
        ({ s with gates := s.gates.erase key }.put n (.leaving gate r))
  | release {gate : Nat} {r : ReadResult} :
      Turn s now n q key (.leaving gate r) (s.put n (.returned r))

/-- What a step of a flight can do. -/
inductive Moves (s : Flights) (now : Timestamp) (n : Nat) : Flights → Prop
  /-- A flight without a key reads and returns. -/
  | apart {q : ReadRequest} {stage : FlightStage} (here : s.flights[n]? = some ⟨q, none, stage⟩)
      (going : stage.result? = none) : Moves s now n (s.readApart now n q)
  | turn {q : ReadRequest} {key : String} {stage : FlightStage} {s' : Flights}
      (here : s.flights[n]? = some ⟨q, some key, stage⟩) (t : Turn s now n q key stage s') :
      Moves s now n s'

variable {p : Pipeline} {s s' : Flights} {now : Timestamp} {n : Nat}

/-- A flight with a key moves by its turn. -/
lemma Moves.turn_of_key (m : Moves s now n s') {q : ReadRequest} {key : String}
    {stage : FlightStage} (here : s.flights[n]? = some ⟨q, some key, stage⟩) :
    Turn s now n q key stage s' := by
  cases m with
  | apart here' _ => cases here.symm.trans here'
  | turn here' t =>
    obtain ⟨rfl, same, rfl⟩ := Flight.mk.inj (Option.some.inj (here.symm.trans here'))
    obtain rfl := Option.some.inj same
    exact t

lemma stage_of_start {requests : List ReadRequest} {i : Nat} {f : Flight}
    (hf : (start p requests).flights[i]? = some f) : f.stage = .arrived := by
  obtain ⟨q, -, rfl⟩ := List.mem_map.1 (List.mem_of_getElem? hf)
  rfl

lemma isHeld_eq_false_iff {gate : Nat} :
    s.isHeld gate = false ↔ ∀ f ∈ s.flights, f.stage.held? ≠ some gate := by
  simp [isHeld]

lemma look_eq {key : String} {q : ReadRequest} :
    s.look now n key q = { s with pipeline := (s.pipeline.cached now key q).2 }.put n
      (match (s.pipeline.cached now key q).1 with
        | some r => .returned r
        | none => .missed) := rfl

/-- The steps are the moves. -/
theorem step?_eq_some_iff : s.step? now n = some s' ↔ Moves s now n s' := by
  constructor
  · intro h
    unfold step? at h
    split at h
    · cases h
    · next q key? stage here =>
      split at h
      · cases h
      · next going =>
        cases h
        refine .apart here ?_
        cases stage <;> first | rfl | exact absurd rfl (going _)
      all_goals refine .turn here ?_
      · next key =>
        cases h
        rw [look_eq]
        cases hit : (s.pipeline.cached now key q).1 with
        | some r => exact .found hit
        | none => exact .miss hit
      · next key =>
        cases h
        unfold takeGate
        cases listed : s.gates.get? key with
        | some gate => exact .take listed
        | none => exact .list listed
      · next key gate =>
        split_ifs at h with held
        cases h
        exact .enter (isHeld_eq_false_iff.1 (by simpa using held))
      · next key gate =>
        cases h
        unfold lookAgain
        have hit {r : ReadResult} := @Turn.foundAgain s now n q key gate r
        have miss := @Turn.begin s now n q key gate
        generalize s.pipeline.cached now key q = look at hit miss ⊢
        obtain ⟨found, p⟩ := look
        cases found with
        | some r => exact hit rfl
        | none => exact miss rfl
      · cases h
        exact .finish
      · cases h
        exact .keep
      · cases h
        exact .delist
      · cases h
        exact .release
  · intro m
    unfold step?
    cases m with
    | @apart q stage here going =>
      rw [here]
      cases stage <;> first | rfl | cases going
    | @turn q key _ _ here t =>
      rw [here]
      cases t with
      | found hit => simp only [look_eq, hit]
      | miss none => simp only [look_eq, none]
      | take listed => simp only [takeGate, listed]
      | list none => simp only [takeGate, none]
      | enter free => simp only [isHeld_eq_false_iff.2 free, Bool.false_eq_true, if_false]
      | @foundAgain gate r hit =>
        simp only [lookAgain]
        generalize s.pipeline.cached now key q = look at hit ⊢
        obtain ⟨found, p⟩ := look
        obtain rfl : found = some r := hit
        rfl
      | begin none =>
        simp only [lookAgain]
        generalize s.pipeline.cached now key q = look at none ⊢
        obtain ⟨found, p⟩ := look
        obtain rfl : found = .none := none
        rfl
      | finish => rfl
      | keep => rfl
      | delist => rfl
      | release => rfl

/-- What every move of a schedule keeps is kept by the schedule. -/
theorem follow_keeps {P : Flights → Prop} {steps : List (Timestamp × Nat)}
    (move : ∀ v ∈ steps, ∀ s s', P s → Moves s v.1 v.2 s' → P s') (h : P s)
    (run : s.follow? steps = some s') : P s' := by
  induction steps generalizing s with
  | nil => exact Option.some.inj run ▸ h
  | cons v rest ih =>
    obtain ⟨mid, first, run⟩ := Option.bind_eq_some_iff.1 run
    have next : P mid := move v List.mem_cons_self s mid h (step?_eq_some_iff.1 first)
    exact ih (fun w hw => move w (List.mem_cons_of_mem v hw)) next run

/-! ## One flight at a new stage -/

section Put

variable {q : ReadRequest} {key? : Option String} {old stage : FlightStage}

@[simp] lemma put_pipeline : (s.put n stage).pipeline = s.pipeline := rfl

@[simp] lemma put_gates : (s.put n stage).gates = s.gates := rfl

@[simp] lemma put_made : (s.put n stage).made = s.made := rfl

@[simp] lemma put_readings : (s.put n stage).readings = s.readings := rfl

lemma getElem?_put (here : s.flights[n]? = some ⟨q, key?, old⟩) (i : Nat) :
    (s.put n stage).flights[i]? = if i = n then some ⟨q, key?, stage⟩ else s.flights[i]? := by
  rw [put, List.getElem?_modify]
  by_cases hi : n = i
  · subst hi
    simp [here]
  · simp [hi, Ne.symm hi]

/-- A flight of the new state is the one that has moved or one of the others. -/
lemma of_getElem?_put (here : s.flights[n]? = some ⟨q, key?, old⟩) {i : Nat} {f : Flight}
    (hf : (s.put n stage).flights[i]? = some f) :
    (i = n ∧ f = ⟨q, key?, stage⟩) ∨ (i ≠ n ∧ s.flights[i]? = some f) := by
  rw [getElem?_put here] at hf
  split_ifs at hf with hi
  · exact Or.inl ⟨hi, (Option.some.inj hf).symm⟩
  · exact Or.inr ⟨hi, hf⟩

lemma getElem?_put_self (here : s.flights[n]? = some ⟨q, key?, old⟩) (stage : FlightStage) :
    (s.put n stage).flights[n]? = some ⟨q, key?, stage⟩ := by
  rw [getElem?_put here, if_pos rfl]

lemma getElem?_put_of_ne (here : s.flights[n]? = some ⟨q, key?, old⟩) {i : Nat} (hi : i ≠ n) :
    (s.put n stage).flights[i]? = s.flights[i]? := by
  rw [getElem?_put here, if_neg hi]

end Put

/-- A move brings one flight to a new stage. -/
lemma Moves.exists_put (m : Moves s now n s') : ∃ q key? old stage,
    s.flights[n]? = some ⟨q, key?, old⟩ ∧ s'.flights = (s.put n stage).flights := by
  cases m with
  | apart here _ => exact ⟨_, _, _, _, here, rfl⟩
  | turn here t => cases t <;> exact ⟨_, _, _, _, here, rfl⟩

/-! ## What stays as it is -/

/-- What a flight is for. -/
def tickets (s : Flights) : List (ReadRequest × Option String) :=
  s.flights.map fun f => (f.request, f.key?)

@[simp] lemma tickets_put (n : Nat) (stage : FlightStage) (s : Flights) :
    (s.put n stage).tickets = s.tickets := by
  refine List.ext_getElem? fun i => ?_
  rw [tickets, tickets, List.getElem?_map, List.getElem?_map, put, List.getElem?_modify]
  cases s.flights[i]? with
  | none => rfl
  | some f =>
    by_cases hi : n = i <;> simp [hi]

lemma Moves.tickets (m : Moves s now n s') : s'.tickets = s.tickets := by
  cases m with
  | apart here going => exact tickets_put _ _ _
  | turn here t => cases t <;> exact tickets_put _ _ _

lemma Pipeline.keep_registry (now : Timestamp) (key : String) (r : ReadResult) (p : Pipeline) :
    (p.keep now key r).registry = p.registry := by
  unfold Pipeline.keep
  split_ifs <;> rfl

lemma Moves.registry (m : Moves s now n s') : s'.pipeline.registry = s.pipeline.registry := by
  cases m with
  | apart here going => rfl
  | turn here t => cases t <;> first | rfl | exact Pipeline.keep_registry _ _ _ _

/-- What the flights of some requests are for, and by what they are read, in every state. -/
structure Serves (p : Pipeline) (requests : List ReadRequest) (s : Flights) : Prop where
  registry : s.pipeline.registry = p.registry
  tickets : s.tickets = requests.map fun q => (q, p.cacheKey? q)

variable {requests : List ReadRequest}

lemma start_serves (p : Pipeline) (requests : List ReadRequest) :
    Serves p requests (start p requests) where
  registry := rfl
  tickets := by simp [tickets, start]

lemma Serves.moves (h : Serves p requests s) (m : Moves s now n s') : Serves p requests s' :=
  ⟨m.registry.trans h.registry, m.tickets.trans h.tickets⟩

lemma cacheKey?_eq_of_registry {p p' : Pipeline} (h : p.registry = p'.registry)
    (q : ReadRequest) : p.cacheKey? q = p'.cacheKey? q := by
  unfold Pipeline.cacheKey?
  rw [h]

/-- Each flight is for one of the requests, under its key. -/
lemma Serves.flight (h : Serves p requests s) {i : Nat} {f : Flight}
    (hf : s.flights[i]? = some f) :
    requests[i]? = some f.request ∧ f.key? = p.cacheKey? f.request := by
  have ticket : s.tickets[i]? = some (f.request, f.key?) := by
    rw [Flights.tickets, List.getElem?_map, hf]
    rfl
  rw [h.tickets, List.getElem?_map] at ticket
  obtain ⟨q, hq, same⟩ := Option.map_eq_some_iff.1 ticket
  obtain ⟨rfl, key⟩ := Prod.mk.inj same
  exact ⟨hq, key.symm⟩

/-- Each request has its flight. -/
lemma Serves.exists_flight (h : Serves p requests s) {i : Nat} {q : ReadRequest}
    (hi : requests[i]? = some q) : ∃ stage, s.flights[i]? = some ⟨q, p.cacheKey? q, stage⟩ := by
  have ticket : s.tickets[i]? = some (q, p.cacheKey? q) := by
    rw [h.tickets, List.getElem?_map, hi]
    rfl
  rw [Flights.tickets, List.getElem?_map] at ticket
  obtain ⟨f, hf, same⟩ := Option.map_eq_some_iff.1 ticket
  obtain ⟨request, key⟩ := Prod.mk.inj same
  subst request
  exact ⟨f.stage, by rw [hf, ← key]⟩

/-! ## Gates -/

/-- No gate is held twice. -/
def Exclusive (s : Flights) : Prop :=
  ∀ (i j : Nat) (f f' : Flight) (g : Nat), s.flights[i]? = some f → s.flights[j]? = some f' →
    f.stage.held? = some g → f'.stage.held? = some g → i = j

lemma start_exclusive (p : Pipeline) (requests : List ReadRequest) :
    (start p requests).Exclusive := by
  intro i j f f' g hf _ held _
  rw [stage_of_start hf] at held
  cases held

section Exclusive

variable {q : ReadRequest} {key? : Option String} {old stage : FlightStage}

/-- A flight that takes no gate does not harm. -/
lemma Exclusive.put (h : s.Exclusive) (here : s.flights[n]? = some ⟨q, key?, old⟩)
    (less : ∀ g, stage.held? = some g → old.held? = some g) : (s.put n stage).Exclusive := by
  have before : ∀ (i : Nat) (f : Flight) (g : Nat), (s.put n stage).flights[i]? = some f →
      f.stage.held? = some g →
        ∃ f' : Flight, s.flights[i]? = some f' ∧ f'.stage.held? = some g := by
    intro i f g hf held
    rcases of_getElem?_put here hf with ⟨rfl, rfl⟩ | ⟨-, hf⟩
    · exact ⟨_, here, less g held⟩
    · exact ⟨f, hf, held⟩
  intro i j f f' g hf hf' held held'
  obtain ⟨e, he, holds⟩ := before i f g hf held
  obtain ⟨e', he', holds'⟩ := before j f' g hf' held'
  exact h i j e e' g he he' holds holds'

/-- A gate that nobody holds may be taken. -/
lemma Exclusive.enter (h : s.Exclusive) {gate : Nat}
    (here : s.flights[n]? = some ⟨q, key?, old⟩)
    (free : ∀ f ∈ s.flights, f.stage.held? ≠ some gate) :
    (s.put n (.admitted gate)).Exclusive := by
  intro i j f f' g hf hf' held held'
  rcases of_getElem?_put here hf with ⟨rfl, rfl⟩ | ⟨-, was⟩
  · rcases of_getElem?_put here hf' with ⟨rfl, -⟩ | ⟨-, was'⟩
    · rfl
    · obtain rfl := Option.some.inj held
      exact absurd held' (free f' (List.mem_of_getElem? was'))
  · rcases of_getElem?_put here hf' with ⟨rfl, rfl⟩ | ⟨-, was'⟩
    · obtain rfl := Option.some.inj held'
      exact absurd held (free f (List.mem_of_getElem? was))
    · exact h i j f f' g was was' held held'

end Exclusive

theorem Exclusive.moves (h : s.Exclusive) (m : Moves s now n s') : s'.Exclusive := by
  cases m with
  | apart here _ => exact Exclusive.put h here nofun
  | turn here t =>
    cases t with
    | found => exact Exclusive.put h here nofun
    | miss => exact Exclusive.put h here nofun
    | take => exact Exclusive.put h here nofun
    | list => exact Exclusive.put h here nofun
    | enter free => exact h.enter here free
    | foundAgain => exact Exclusive.put h here fun _ held => held
    | begin => exact Exclusive.put h here fun _ held => held
    | finish => exact Exclusive.put h here fun _ held => held
    | keep => exact Exclusive.put h here fun _ held => held
    | delist => exact Exclusive.put h here fun _ held => held
    | release => exact Exclusive.put h here nofun

end Flights

/-- The gate of a flight that has yet to take a gate off the list. -/
def FlightStage.due? : FlightStage → Option Nat
  | waiting g | admitted g | reading g _ | done g _ | answered g _ => some g
  | arrived | missed | leaving _ _ | returned _ => none

namespace Flights

variable {p : Pipeline} {s s' : Flights} {now : Timestamp} {n : Nat}

/-- For every gate on the list there is a flight that will take it off. -/
def Awaited (s : Flights) : Prop :=
  ∀ (key : String) (g : Nat), s.gates.get? key = some g →
    ∃ (i : Nat) (f : Flight), s.flights[i]? = some f ∧ f.key? = some key ∧ f.stage.due? = some g

lemma start_awaited (p : Pipeline) (requests : List ReadRequest) : (start p requests).Awaited :=
  nofun

/-- A flight that goes on to take its gate off the list leaves all gates awaited. -/
lemma Awaited.put (h : s.Awaited) {q : ReadRequest} {key? : Option String}
    {old stage : FlightStage} (here : s.flights[n]? = some ⟨q, key?, old⟩)
    (still : ∀ key, key? = some key → ∀ g, old.due? = some g → stage.due? = some g) :
    (s.put n stage).Awaited := by
  intro key g listed
  obtain ⟨i, f, hf, forKey, due⟩ := h key g listed
  by_cases hi : i = n
  · subst hi
    obtain rfl := Option.some.inj (here.symm.trans hf)
    exact ⟨i, _, getElem?_put_self here _, forKey, still key forKey g due⟩
  · exact ⟨i, f, by rw [getElem?_put_of_ne here hi, hf], forKey, due⟩

/-- A flight that lists a new gate awaits it. -/
lemma Awaited.list (h : s.Awaited) {q : ReadRequest} {key : String}
    (here : s.flights[n]? = some ⟨q, some key, .missed⟩) :
    ({ s with gates := s.gates.insert key s.made, made := s.made + 1 }.put n
      (.waiting s.made)).Awaited := by
  intro k g listed
  rw [put_gates, SortedMap.get?_insert] at listed
  split_ifs at listed with hk
  · subst hk
    obtain rfl := Option.some.inj listed
    exact ⟨n, _, getElem?_put_self here _, rfl, rfl⟩
  · have others : (s.put n (.waiting s.made)).Awaited := Awaited.put h here nofun
    exact others k g listed

/-- A flight that takes the gate of its key off the list leaves the other gates awaited. -/
lemma Awaited.delist (h : s.Awaited) {q : ReadRequest} {key : String} {gate : Nat}
    {r : ReadResult} (here : s.flights[n]? = some ⟨q, some key, .answered gate r⟩) :
    ({ s with gates := s.gates.erase key }.put n (.leaving gate r)).Awaited := by
  intro k g listed
  rw [put_gates, SortedMap.get?_erase] at listed
  split_ifs at listed with hk
  obtain ⟨i, f, hf, forKey, due⟩ := h k g listed
  have other : i ≠ n := by
    rintro rfl
    obtain rfl := Option.some.inj (here.symm.trans hf)
    exact hk (Option.some.inj forKey).symm
  exact ⟨i, f, (getElem?_put_of_ne here other).trans hf, forKey, due⟩

theorem Awaited.moves (h : s.Awaited) (m : Moves s now n s') : s'.Awaited := by
  cases m with
  | apart here _ => exact Awaited.put h here nofun
  | turn here t =>
    cases t with
    | found => exact Awaited.put h here nofun
    | miss => exact Awaited.put h here nofun
    | take => exact Awaited.put h here nofun
    | list => exact Awaited.list h here
    | enter => exact Awaited.put h here fun _ _ _ due => due
    | foundAgain => exact Awaited.put h here fun _ _ _ due => due
    | begin => exact Awaited.put h here fun _ _ _ due => due
    | finish => exact Awaited.put h here fun _ _ _ due => due
    | keep => exact Awaited.put h here fun _ _ _ due => due
    | delist => exact Awaited.delist h here
    | release => exact Awaited.put h here nofun

lemma isOver_iff : s.isOver = true ↔ ∀ f ∈ s.flights, f.stage.result? ≠ none := by
  simp [isOver, Option.isSome_iff_ne_none]

lemma exists_result (ended : s.isOver = true) {f : Flight} (hf : f ∈ s.flights) :
    ∃ r, f.stage = .returned r := by
  have result := isOver_iff.1 ended f hf
  cases hs : f.stage <;> rw [hs] at result <;> first | exact ⟨_, rfl⟩ | exact absurd rfl result

variable {requests : List ReadRequest}

/-- What every state of a schedule is like, whatever is read. -/
structure Sound (p : Pipeline) (requests : List ReadRequest) (s : Flights) : Prop where
  serves : Serves p requests s
  exclusive : s.Exclusive
  awaited : s.Awaited

lemma start_sound (p : Pipeline) (requests : List ReadRequest) :
    Sound p requests (start p requests) :=
  ⟨start_serves p requests, start_exclusive p requests, start_awaited p requests⟩

lemma Sound.moves (h : Sound p requests s) (move : Moves s now n s') : Sound p requests s' :=
  ⟨h.serves.moves move, h.exclusive.moves move, h.awaited.moves move⟩

theorem sound_of_follow? {steps : List (Timestamp × Nat)}
    (run : (start p requests).follow? steps = some s) : Sound p requests s :=
  follow_keeps (fun _ _ _ _ h move => h.moves move) (start_sound p requests) run

/-- When all flights have returned, no gate is left. -/
lemma Sound.gates (h : Sound p requests s) (ended : s.isOver = true) (key : String) :
    s.gates.get? key = none := by
  cases listed : s.gates.get? key with
  | none => rfl
  | some g =>
    obtain ⟨i, f, hf, -, due⟩ := h.awaited key g listed
    have returned := isOver_iff.1 ended f (List.mem_of_getElem? hf)
    obtain ⟨q, key?, stage⟩ := f
    cases stage <;> first | exact absurd rfl returned | cases due

/-! ## No schedule gets stuck -/

/-- A flight that does not wait for a gate, or for one that nobody holds, can go on. -/
lemma exists_move {i : Nat} {f : Flight} (hf : s.flights[i]? = some f)
    (going : f.stage.result? = none)
    (free : ∀ gate, f.stage = .waiting gate → ∀ f' ∈ s.flights, f'.stage.held? ≠ some gate)
    (now : Timestamp) : ∃ s', Moves s now i s' := by
  obtain ⟨q, key?, stage⟩ := f
  cases key? with
  | none => exact ⟨_, .apart hf going⟩
  | some key =>
    have turn {s'} (t : Turn s now i q key stage s') : ∃ s', Moves s now i s' := ⟨s', .turn hf t⟩
    cases stage with
    | arrived =>
      cases hit : (s.pipeline.cached now key q).1 with
      | some r => exact turn (.found hit)
      | none => exact turn (.miss hit)
    | missed =>
      cases listed : s.gates.get? key with
      | some gate => exact turn (.take listed)
      | none => exact turn (.list listed)
    | waiting gate => exact turn (.enter (free gate rfl))
    | admitted gate =>
      cases hit : (s.pipeline.cached now key q).1 with
      | some r => exact turn (.foundAgain hit)
      | none => exact turn (.begin hit)
    | reading gate began => exact turn .finish
    | done gate r => exact turn .keep
    | answered gate r => exact turn .delist
    | leaving gate r => exact turn .release
    | returned r => cases going

/-- As long as some flight has not returned, some flight can go on, at any moment. -/
theorem isOver_or_moves (s : Flights) :
    s.isOver = true ∨ ∃ i, ∀ now, ∃ s', Moves s now i s' := by
  by_cases held : ∃ f ∈ s.flights, ∃ g, f.stage.held? = some g
  · -- who holds a gate waits for nothing
    obtain ⟨f, hf, g, holds⟩ := held
    obtain ⟨i, hi⟩ := List.mem_iff_getElem?.1 hf
    obtain ⟨q, key?, stage⟩ := f
    refine Or.inr ⟨i, exists_move hi ?_ fun gate waits => ?_⟩
    · cases stage <;> first | rfl | cases holds
    · obtain rfl : stage = .waiting gate := waits
      cases holds
  · by_cases ended : s.isOver = true
    · exact Or.inl ended
    · have going : ∃ f ∈ s.flights, f.stage.result? = none := by
        simpa [isOver_iff] using ended
      obtain ⟨f, hf, going⟩ := going
      obtain ⟨i, hi⟩ := List.mem_iff_getElem?.1 hf
      exact Or.inr ⟨i, exists_move hi going fun gate _ f' hf' holds => held ⟨f', hf', gate, holds⟩⟩

end Flights

/-- How many steps a flight has before it at most. -/
def FlightStage.ahead : FlightStage → Nat
  | arrived => 8
  | missed => 7
  | waiting _ => 6
  | admitted _ => 5
  | reading _ _ => 4
  | done _ _ => 3
  | answered _ _ => 2
  | leaving _ _ => 1
  | returned _ => 0

namespace Flights

variable {p : Pipeline} {s s' : Flights} {now : Timestamp} {n : Nat}

/-- How many steps all flights have before them at most. -/
def remaining (s : Flights) : Nat := (s.flights.map fun f => f.stage.ahead).sum

/-- One flight among the others, before it moves and afterwards. -/
lemma exists_split {q : ReadRequest} {key? : Option String} {old : FlightStage}
    (here : s.flights[n]? = some ⟨q, key?, old⟩) (stage : FlightStage) :
    ∃ before behind, s.flights = before ++ ⟨q, key?, old⟩ :: behind ∧
      (s.put n stage).flights = before ++ ⟨q, key?, stage⟩ :: behind := by
  obtain ⟨inside, same⟩ := List.getElem?_eq_some_iff.1 here
  obtain ⟨before, f, behind, all, length, moved⟩ :=
    List.exists_of_modify (fun f : Flight => { f with stage := stage }) inside
  have found : s.flights[n]? = some f := by
    rw [all, ← length, List.getElem?_append_right (Nat.le_refl _), Nat.sub_self,
      List.getElem?_cons_zero]
  obtain rfl := Option.some.inj (found.symm.trans here)
  exact ⟨before, behind, all, moved⟩

/-- How the number of flights of some kind changes when one of them moves. -/
lemma countP_put {q : ReadRequest} {key? : Option String} {old : FlightStage}
    (here : s.flights[n]? = some ⟨q, key?, old⟩) (stage : FlightStage) (P : Flight → Bool) :
    (s.put n stage).flights.countP P + (if P ⟨q, key?, old⟩ then 1 else 0) =
      s.flights.countP P + if P ⟨q, key?, stage⟩ then 1 else 0 := by
  obtain ⟨before, behind, all, moved⟩ := exists_split here stage
  rw [all, moved]
  simp only [List.countP_append, List.countP_cons]
  omega

lemma remaining_put {q : ReadRequest} {key? : Option String} {old : FlightStage}
    (here : s.flights[n]? = some ⟨q, key?, old⟩) {stage : FlightStage}
    (less : stage.ahead < old.ahead) : (s.put n stage).remaining < s.remaining := by
  obtain ⟨before, behind, all, moved⟩ := exists_split here stage
  rw [remaining, remaining, all, moved]
  simp only [List.map_append, List.map_cons, List.sum_append, List.sum_cons]
  omega

/-- Every move leaves fewer steps. -/
theorem Moves.remaining_lt (m : Moves s now n s') : s'.remaining < s.remaining := by
  cases m with
  | @apart q stage here going =>
    refine remaining_put (s := { s with readings := s.readings ++ [(now, q)] }) here ?_
    cases stage <;> first | exact Nat.succ_pos _ | cases going
  | @turn q key _ _ here t =>
    cases t with
    | found => exact remaining_put (s := { s with pipeline := _ }) here (Nat.succ_pos _)
    | miss => exact remaining_put (s := { s with pipeline := _ }) here (Nat.lt_succ_self _)
    | take => exact remaining_put here (Nat.lt_succ_self _)
    | list => exact remaining_put (s := { s with gates := _, made := _ }) here (Nat.lt_succ_self _)
    | enter => exact remaining_put here (Nat.lt_succ_self _)
    | foundAgain =>
      exact remaining_put (s := { s with pipeline := _ }) here (by simp [FlightStage.ahead])
    | begin =>
      exact remaining_put (s := { s with pipeline := _, readings := _ }) here (Nat.lt_succ_self _)
    | finish => exact remaining_put here (Nat.lt_succ_self _)
    | keep => exact remaining_put (s := { s with pipeline := _ }) here (Nat.lt_succ_self _)
    | delist => exact remaining_put (s := { s with gates := _ }) here (Nat.lt_succ_self _)
    | release => exact remaining_put here (Nat.lt_succ_self _)

lemma remaining_start (p : Pipeline) (requests : List ReadRequest) :
    (start p requests).remaining = 8 * requests.length := by
  induction requests with
  | nil => rfl
  | cons q rest ih =>
    simp only [remaining, start, List.map_cons, List.sum_cons, List.length_cons,
      FlightStage.ahead] at ih ⊢
    omega

lemma length_add_remaining_le {steps : List (Timestamp × Nat)}
    (run : s.follow? steps = some s') : steps.length + s'.remaining ≤ s.remaining := by
  induction steps generalizing s with
  | nil =>
    obtain rfl := Option.some.inj run
    simp
  | cons v rest ih =>
    obtain ⟨mid, first, run⟩ := Option.bind_eq_some_iff.1 run
    have less := (step?_eq_some_iff.1 first).remaining_lt
    have rest := ih run
    simp only [List.length_cons]
    omega

/-- No schedule is longer than eight steps for each flight. -/
theorem length_le_of_follow? {requests : List ReadRequest} {steps : List (Timestamp × Nat)}
    (run : (start p requests).follow? steps = some s) : steps.length ≤ 8 * requests.length := by
  have bound := length_add_remaining_le run
  rw [remaining_start] at bound
  omega

lemma follow?_cons (s : Flights) (v : Timestamp × Nat) (rest : List (Timestamp × Nat)) :
    s.follow? (v :: rest) = (s.step? v.1 v.2).bind (·.follow? rest) := rfl

/-- Every schedule can be brought to an end, the steps being taken at any moment. -/
theorem exists_over (s : Flights) (now : Timestamp) :
    ∃ steps s', (∀ v ∈ steps, v.1 = now) ∧ s.follow? steps = some s' ∧ s'.isOver = true := by
  induction left : s.remaining using Nat.strongRecOn generalizing s with
  | _ k ih =>
    rcases isOver_or_moves s with ended | ⟨i, goesOn⟩
    · exact ⟨[], s, nofun, rfl, ended⟩
    · obtain ⟨mid, m⟩ := goesOn now
      obtain ⟨steps, s', moments, run, ended⟩ := ih _ (left ▸ m.remaining_lt) mid rfl
      refine ⟨(now, i) :: steps, s', List.forall_mem_cons.2 ⟨rfl, moments⟩, ?_, ended⟩
      rw [follow?_cons, step?_eq_some_iff.2 m]
      exact run

/-! ## One flight after another -/

/-- Some moves of one flight at one moment, with no other flight in between. -/
def Alone (now : Timestamp) (n : Nat) : Flights → Flights → Prop :=
  Relation.ReflTransGen fun s s' => Moves s now n s'

lemma Alone.exists_steps (h : Alone now n s s') :
    ∃ steps, (∀ v ∈ steps, v = (now, n)) ∧ s.follow? steps = some s' := by
  induction h using Relation.ReflTransGen.head_induction_on with
  | refl => exact ⟨[], nofun, rfl⟩
  | head m _ ih =>
    obtain ⟨steps, same, run⟩ := ih
    refine ⟨(now, n) :: steps, List.forall_mem_cons.2 ⟨rfl, same⟩, ?_⟩
    rw [follow?_cons, step?_eq_some_iff.2 m]
    exact run

/-- Only the last stage of a flight counts. -/
lemma flights_put_of_eq {t : Flights} {a : FlightStage} (h : t.flights = (s.put n a).flights)
    (b : FlightStage) : (t.put n b).flights = (s.put n b).flights := by
  rw [put, h, put, List.modify_modify_eq]
  rfl

lemma erase_insert_empty (key : String) (g : Nat) :
    (SortedMap.empty.insert key g).erase key = .empty := by
  refine SortedMap.ext_get? fun k => ?_
  rw [SortedMap.get?_erase, SortedMap.get?_insert]
  split_ifs <;> rfl

section Read

variable {q : ReadRequest} {key : String}

lemma read_of_no_key (hk : p.cacheKey? q = none) :
    p.read now q = (p.registry.read now q, p) := by
  rw [Pipeline.read, hk]

lemma read_of_hit (hk : p.cacheKey? q = some key) {r : ReadResult}
    (hit : (p.cached now key q).1 = some r) : p.read now q = (r, (p.cached now key q).2) := by
  rw [Pipeline.read, hk]
  dsimp only
  generalize p.cached now key q = look at hit ⊢
  obtain ⟨found, p'⟩ := look
  obtain rfl : found = some r := hit
  rfl

/-- What a look into the cache comes to, with a reading if it finds nothing. -/
def lookOrRead (now : Timestamp) (key : String) (q : ReadRequest) (p : Pipeline) :
    ReadResult × Pipeline :=
  match p.cached now key q with
  | (some r, p') => (r, p')
  | (none, p') => (p'.registry.read now q, p'.keep now key (p'.registry.read now q))

lemma lookOrRead_of_hit {r : ReadResult} (hit : (p.cached now key q).1 = some r) :
    lookOrRead now key q p = (r, (p.cached now key q).2) := by
  unfold lookOrRead
  generalize p.cached now key q = look at hit ⊢
  obtain ⟨found, p'⟩ := look
  obtain rfl : found = some r := hit
  rfl

lemma lookOrRead_of_miss (miss : (p.cached now key q).1 = none) :
    lookOrRead now key q p = ((p.cached now key q).2.registry.read now q,
      (p.cached now key q).2.keep now key ((p.cached now key q).2.registry.read now q)) := by
  unfold lookOrRead
  generalize p.cached now key q = look at miss ⊢
  obtain ⟨found, p'⟩ := look
  obtain rfl : found = none := miss
  rfl

/-- A reading that finds nothing at the first look goes by the second one. -/
lemma read_of_miss (hk : p.cacheKey? q = some key) (miss : (p.cached now key q).1 = none) :
    p.read now q = lookOrRead now key q (p.cached now key q).2 := by
  rw [Pipeline.read, hk]
  dsimp only
  generalize p.cached now key q = look at miss ⊢
  obtain ⟨found, p'⟩ := look
  obtain rfl : found = none := miss
  dsimp only
  unfold lookOrRead
  generalize p'.cached now key q = look
  obtain ⟨found, p''⟩ := look
  cases found with
  | some r => rfl
  | none =>
    dsimp only
    unfold Pipeline.readFresh Pipeline.keep
    dsimp only
    split_ifs <;> rfl

end Read

section Undisturbed

variable {q : ReadRequest} {key : String} {gate : Nat}

/-- A flight that has its result leaves. -/
lemma leaves_alone (now : Timestamp) {r : ReadResult}
    (here : s.flights[n]? = some ⟨q, some key, .answered gate r⟩)
    (listed : s.gates = SortedMap.empty.insert key gate) :
    ∃ s', Alone now n s s' ∧ s'.pipeline = s.pipeline ∧ s'.gates = .empty ∧
      s'.flights = (s.put n (.returned r)).flights := by
  have leaving := getElem?_put_self (s := { s with gates := s.gates.erase key }) here
    (.leaving gate r)
  refine ⟨_, .tail (.single (.turn here .delist)) (.turn leaving .release), rfl, ?_,
    flights_put_of_eq rfl _⟩
  rw [put_gates, put_gates, listed, erase_insert_empty]

/-- A flight that holds its gate looks into the cache again, and reads if it must. -/
lemma looksAgain_alone (now : Timestamp)
    (here : s.flights[n]? = some ⟨q, some key, .admitted gate⟩)
    (listed : s.gates = SortedMap.empty.insert key gate) :
    ∃ s', Alone now n s s' ∧ s'.pipeline = (lookOrRead now key q s.pipeline).2 ∧
      s'.gates = .empty ∧
      s'.flights = (s.put n (.returned (lookOrRead now key q s.pipeline).1)).flights := by
  cases hit : (s.pipeline.cached now key q).1 with
  | some r =>
    rw [lookOrRead_of_hit hit]
    have answered := getElem?_put_self
      (s := { s with pipeline := (s.pipeline.cached now key q).2 }) here (.answered gate r)
    obtain ⟨s', alone, pipeline, gates, flights⟩ := leaves_alone now answered listed
    exact ⟨s', .head (.turn here (.foundAgain hit)) alone, pipeline, gates,
      flights.trans (flights_put_of_eq rfl _)⟩
  | none =>
    rw [lookOrRead_of_miss hit]
    let p := (s.pipeline.cached now key q).2
    let r := p.registry.read now q
    let s₁ := { s with pipeline := p, readings := s.readings ++ [(now, q)] }.put n
      (.reading gate now)
    let s₂ := s₁.put n (.done gate r)
    let s₃ := { s₂ with pipeline := p.keep now key r }.put n (.answered gate r)
    have reading : s₁.flights[n]? = some ⟨q, some key, .reading gate now⟩ :=
      getElem?_put_self here _
    have done : s₂.flights[n]? = some ⟨q, some key, .done gate r⟩ := getElem?_put_self reading _
    have answered : s₃.flights[n]? = some ⟨q, some key, .answered gate r⟩ :=
      getElem?_put_self (s := { s₂ with pipeline := p.keep now key r }) done _
    obtain ⟨s', alone, pipeline, gates, flights⟩ := leaves_alone now answered listed
    have steps : Alone now n s s' :=
      .head (.turn here (.begin hit)) <| .head (.turn reading .finish) <|
        .head (.turn done .keep) alone
    have same (x : FlightStage) : (s₃.put n x).flights = (s.put n x).flights :=
      (flights_put_of_eq (s := { s₂ with pipeline := p.keep now key r }) rfl x).trans <|
        (flights_put_of_eq (s := s₁) rfl x).trans (flights_put_of_eq rfl x)
    exact ⟨s', steps, pipeline, gates, flights.trans (same _)⟩

/-- **A flight that nobody disturbs reads as the pipeline does.** -/
theorem exists_alone (now : Timestamp)
    (here : s.flights[n]? = some ⟨q, s.pipeline.cacheKey? q, .arrived⟩)
    (quiet : ∀ f ∈ s.flights, f.stage.held? = none) (idle : s.gates = .empty) :
    ∃ s', Alone now n s s' ∧ s'.pipeline = (s.pipeline.read now q).2 ∧ s'.gates = .empty ∧
      s'.flights = (s.put n (.returned (s.pipeline.read now q).1)).flights := by
  cases hk : s.pipeline.cacheKey? q with
  | none =>
    rw [hk] at here
    rw [read_of_no_key hk]
    exact ⟨_, .single (.apart here rfl), rfl, idle, rfl⟩
  | some key =>
    rw [hk] at here
    cases hit : (s.pipeline.cached now key q).1 with
    | some r =>
      rw [read_of_hit hk hit]
      exact ⟨_, .single (.turn here (.found hit)), rfl, idle, rfl⟩
    | none =>
      rw [read_of_miss hk hit]
      -- the gate that the flight lists is its own, and free
      let s₁ := { s with pipeline := (s.pipeline.cached now key q).2 }.put n .missed
      let s₂ := { s₁ with gates := s₁.gates.insert key s₁.made, made := s₁.made + 1 }.put n
        (.waiting s₁.made)
      let s₃ := s₂.put n (.admitted s₁.made)
      have missed : s₁.flights[n]? = some ⟨q, some key, .missed⟩ := getElem?_put_self here _
      have unlisted : s₁.gates.get? key = none := by
        rw [put_gates, idle, SortedMap.get?_empty]
      have waiting : s₂.flights[n]? = some ⟨q, some key, .waiting s₁.made⟩ :=
        getElem?_put_self missed _
      have admitted : s₃.flights[n]? = some ⟨q, some key, .admitted s₁.made⟩ :=
        getElem?_put_self waiting _
      have free : ∀ f ∈ s₂.flights, f.stage.held? ≠ some s₁.made := by
        intro f hf held
        obtain ⟨i, hi⟩ := List.mem_iff_getElem?.1 hf
        rcases of_getElem?_put missed hi with ⟨-, rfl⟩ | ⟨-, hi⟩
        · cases held
        rcases of_getElem?_put here hi with ⟨-, rfl⟩ | ⟨-, hi⟩
        · cases held
        · rw [quiet f (List.mem_of_getElem? hi)] at held
          cases held
      obtain ⟨s', alone, pipeline, gates, flights⟩ := looksAgain_alone now admitted
        (congrArg (fun g : SortedMap Nat => g.insert key s₁.made) idle)
      have steps : Alone now n s s' :=
        .head (.turn here (.miss hit)) <| .head (.turn missed (.list unlisted)) <|
          .head (.turn waiting (.enter free)) alone
      have same (x : FlightStage) : (s₃.put n x).flights = (s.put n x).flights :=
        (flights_put_of_eq (s := s₂) rfl x).trans <|
          (flights_put_of_eq (s := s₁) rfl x).trans (flights_put_of_eq rfl x)
      exact ⟨s', steps, pipeline, gates, flights.trans (same _)⟩

end Undisturbed

lemma modify_middle {α : Type} (before : List α) (a : α) (behind : List α) (f : α → α) :
    (before ++ a :: behind).modify before.length f = before ++ f a :: behind := by
  induction before with
  | nil => rfl
  | cons b before ih => simp only [List.cons_append, List.length_cons, List.modify_succ_cons, ih]

lemma follow?_append (s : Flights) (a b : List (Timestamp × Nat)) :
    s.follow? (a ++ b) = (s.follow? a).bind (·.follow? b) := by
  induction a generalizing s with
  | nil => rfl
  | cons v a ih =>
    rw [List.cons_append, follow?_cons, follow?_cons, Option.bind_assoc]
    exact congrArg _ (funext ih)

lemma Alone.registry (h : Alone now n s s') : s'.pipeline.registry = s.pipeline.registry := by
  induction h with
  | refl => rfl
  | tail _ m ih => exact m.registry.trans ih

/-- Flights of which some have returned, and which go on one after another. -/
lemma exists_oneByOne (now : Timestamp) {past : List Flight} {rest : List ReadRequest}
    (stand : s.flights = past ++ rest.map fun q => ⟨q, p.cacheKey? q, .arrived⟩)
    (returned : ∀ f ∈ past, f.stage.held? = none) (idle : s.gates = .empty)
    (registry : s.pipeline.registry = p.registry) :
    ∃ steps s', (∀ v ∈ steps, v.1 = now) ∧ s.follow? steps = some s' ∧
      s'.pipeline = (s.pipeline.readMany now rest).2 ∧
      s'.flights.map (fun f => f.stage.result?) =
        past.map (fun f => f.stage.result?) ++ (s.pipeline.readMany now rest).1.map some := by
  induction rest generalizing s past with
  | nil => exact ⟨[], s, nofun, rfl, rfl, by simp [stand, Pipeline.readMany]⟩
  | cons q rest ih =>
    have here : s.flights[past.length]? = some ⟨q, s.pipeline.cacheKey? q, .arrived⟩ := by
      rw [stand, List.getElem?_append_right (Nat.le_refl _), Nat.sub_self, List.map_cons,
        List.getElem?_cons_zero, cacheKey?_eq_of_registry registry]
    have quiet : ∀ f ∈ s.flights, f.stage.held? = none := by
      intro f hf
      rw [stand, List.mem_append, List.mem_map] at hf
      rcases hf with hf | ⟨q', -, rfl⟩
      · exact returned f hf
      · rfl
    obtain ⟨mid, alone, pipeline, gates, flights⟩ := exists_alone now here quiet idle
    let f : Flight := ⟨q, p.cacheKey? q, .returned (s.pipeline.read now q).1⟩
    have stand' : mid.flights =
        (past ++ [f]) ++ rest.map fun q => ⟨q, p.cacheKey? q, .arrived⟩ := by
      rw [flights, put, stand, List.map_cons, modify_middle, List.append_assoc]
      rfl
    have returned' : ∀ g ∈ past ++ [f], g.stage.held? = none :=
      List.forall_mem_append.2 ⟨returned, List.forall_mem_singleton.2 rfl⟩
    obtain ⟨steps', s', moments', run', pipeline', results⟩ :=
      ih stand' returned' gates (alone.registry.trans registry)
    obtain ⟨steps, moments, run⟩ := alone.exists_steps
    refine ⟨steps ++ steps', s', ?_, ?_, ?_, ?_⟩
    · exact List.forall_mem_append.2 ⟨fun v hv => congrArg Prod.fst (moments v hv), moments'⟩
    · rw [follow?_append, run]
      exact run'
    · rw [pipeline', pipeline]
      rfl
    · rw [results, pipeline]
      simp [Pipeline.readMany, f]
      rfl

/-- **Reading several sources is a schedule**, in which one flight follows another. -/
theorem readMany_follows (p : Pipeline) (requests : List ReadRequest) (now : Timestamp) :
    ∃ steps s, (∀ v ∈ steps, v.1 = now) ∧ (start p requests).follow? steps = some s ∧
      s.pipeline = (p.readMany now requests).2 ∧
      s.flights.map (fun f => f.stage.result?) = (p.readMany now requests).1.map some := by
  have stand : (start p requests).flights =
      [] ++ requests.map fun q => ⟨q, p.cacheKey? q, .arrived⟩ := rfl
  obtain ⟨steps, s, moments, run, pipeline, results⟩ :=
    exists_oneByOne now stand (List.forall_mem_nil _) rfl rfl
  exact ⟨steps, s, moments, run, pipeline, results⟩

end Flights

end ApiCanon
