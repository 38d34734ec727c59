import RealmDirectory.Proofs.Connection.Progress

/-!
# A connection on the clock

A `Watch` is a connection with a clock, and with the instants at which it read a chunk and completed
a write. Its due events happen in any order. In between, the peer writes what it likes, takes as
many of the bytes written to it as it likes, and leaves when it likes; the connection is asked to
end, or what carries its bytes breaks; and the shared state changes in any way that leaves the link
of the connection served. The clock stands still as long as an event is due and goes on to the next
timer at most.

`Watch.moves` says once what a step can do, and `Watch.Timed` is what every step keeps: the timers
of an open connection count from the last chunk that was read and from the last write.

## Main results

* `Connection.tornDown_finish` — what is left of a connection that ended.
* `Watch.moves` — what a step can do.
* `Watch.timed_run` — the timers after any run.
-/

namespace RealmDirectory

variable {σ : Type}

/-! ## What is left of a connection -/

/-- A live link is closed by closing it. -/
theorem Links.state?_close {links : Links} {id : LinkId} (h : links.isLive id = true) :
    (links.close id).state? id = some .closed := by
  have hstate : links.state? id = some .live := beq_iff_eq.mp h
  unfold state? at hstate
  obtain ⟨link, hlink, hlive⟩ := Option.map_eq_some_iff.mp hstate
  unfold close setState state?
  rw [Array.getElem?_modify, if_pos rfl, hlink]
  show some (if link.state = .gone then link else { link with state := .closed }).state = _
  rw [hlive]
  rfl

/-- A realm that is given up by the link that owns it is offline. -/
theorem Hub.isOffline_release [Transport σ] (hub : Hub σ) {id : UInt32} {link : LinkId}
    {record : RealmRecord} (hfind : (hub.release id link).2.realms.find? id = some record)
    (howned : record.isOwnedBy link = true) : record.info.flags.isOffline = true := by
  rw [(hub.registry_release id link).1] at hfind
  unfold Operation.onTable at hfind
  rw [RealmTable.find?_adjust _ _ _ fun record => by split <;> rfl, if_pos rfl] at hfind
  obtain ⟨before, -, rfl⟩ := Option.map_eq_some_iff.mp hfind
  split
  · exact RealmFlags.isOffline_setOnline before.info.flags false
  · next hother =>
    rw [if_neg hother] at howned
    exact absurd howned hother

/-- The timers are stopped, the link is closed, and the realm of the connection is offline if the
link still owns it. -/
structure Connection.TornDown (c : Connection) (hub : Hub σ) : Prop where
  timers_eq : c.session.state.timers = none
  closed : hub.links.state? c.session.link = some .closed
  offline : ∀ {id : UInt32} {record : RealmRecord}, c.session.state.realm = some id →
    hub.realms.find? id = some record → record.isOwnedBy c.session.link = true →
    record.info.flags.isOffline = true

/-- A connection that ends stops its timers, closes its link and leaves its realm offline. -/
theorem Connection.tornDown_finish [Transport σ] (c : Connection) {hub : Hub σ}
    (hlive : hub.links.isLive c.session.link = true) :
    (c.finish hub).1.TornDown (c.finish hub).2 := by
  have hclosed := Links.state?_close hlive
  unfold finish Session.release
  cases hrealm : c.session.state.realm with
  | none =>
    refine ⟨rfl, hclosed, fun hid => ?_⟩
    cases hrealm.symm.trans hid
  | some id =>
    refine ⟨rfl, ?_, fun {other record} hid hfind howned => ?_⟩
    · have hlinks := (Hub.registry_release { hub with links := hub.links.close c.session.link }
        id c.session.link).2
      exact (congrArg (·.state? c.session.link) hlinks).trans hclosed
    · cases hrealm.symm.trans hid
      exact Hub.isOffline_release _ hfind howned

/-! ## Connections and clocks -/

/-- The write belongs to a heartbeat. -/
def Writing.isHeartbeat : Writing → Bool
  | heartbeat => true
  | reply _ => false

/-- A write that was completed. -/
structure Written where
  time : Instant
  isHeartbeat : Bool
  deriving DecidableEq, Repr

/-- A connection on the clock. -/
structure Watch (σ : Type) where
  now : Instant
  connection : Connection
  hub : Hub σ
  /-- When the timers were started. -/
  opened : Instant
  /-- When a chunk was read, the latest first. -/
  reads : List Instant
  /-- The writes that were completed, the latest first. -/
  writes : List Written

/-- What can happen to a connection and around it while time passes. -/
inductive WatchStep (σ : Type) where
  /-- An event of the connection, if it is due. -/
  | event (event : Event)
  /-- Time passes. -/
  | wait (time : Instant)
  /-- The peer writes, as far as there is room. -/
  | write (bytes : List UInt8)
  /-- The peer writes no more. -/
  | shut
  /-- The peer takes some of the bytes written to it. -/
  | drain (count : Nat)
  /-- The peer neither reads nor writes any more. -/
  | hangUp
  /-- The connection is asked to end. -/
  | cancel
  /-- What carries the bytes breaks. -/
  | fault (reason : String)
  /-- Others change the shared state. -/
  | surroundings (hub : Hub σ)

/-- The step is an end of the stream, a fault, or a request to end. -/
def WatchStep.isDisturbing : WatchStep σ → Bool
  | shut => true
  | hangUp => true
  | cancel => true
  | fault _ => true
  | _ => false

/-- Nobody asked the connection to end, and the peer is there. -/
def Connection.isUndisturbed (c : Connection) : Bool :=
  !c.isCancelled && c.inbound.isOpen && c.outbound.isOpen

namespace Watch

/-- A new connection whose timers run. -/
def start (peer : Endpoint) (capacity : Nat) (opened : Instant) (hub : Hub σ) : Watch σ :=
  let (connection, hub) := Connection.create peer capacity hub
  let (connection, hub) := connection.arm opened hub
  ⟨opened, connection, hub, opened, [], []⟩

/-- When a chunk was last read; the opening counts as one. -/
def lastRead (w : Watch σ) : Instant := w.reads.headD w.opened

/-- When the next heartbeat is due: at once, and then a period after each write. -/
def heartbeatAt (w : Watch σ) : Instant :=
  match w.writes with
  | [] => w.opened
  | last :: _ => last.time + heartbeatPeriod

/-- What the timers of an open connection are. -/
def timers (w : Watch σ) : Timers :=
  ⟨heartbeatPeriod, deadlinePeriod, w.heartbeatAt, w.lastRead + deadlinePeriod⟩

/-! ## The timers -/

/-- The timers of an open connection count from the last chunk and the last write, and its link is
served; a connection that ended has no timers. -/
structure Timed (w : Watch σ) : Prop where
  timers_eq : w.connection.hasEnded = false → w.connection.session.state.timers = some w.timers
  live : w.connection.hasEnded = false → w.hub.links.isLive w.connection.session.link = true
  stopped : w.connection.hasEnded = true → w.connection.session.state.timers = none
  opened_le : w.opened ≤ w.now
  reads_mem : ∀ time ∈ w.reads, w.opened ≤ time ∧ time ≤ w.now
  writes_mem : ∀ written ∈ w.writes, written.time ≤ w.now

/-- A new connection counts both its timers from the moment it was opened. -/
theorem timed_start (peer : Endpoint) (capacity : Nat) (opened : Instant) (hub : Hub σ) :
    (start peer capacity opened hub).Timed where
  timers_eq _ := rfl
  live _ := by
    show (hub.links.add peer).2.isLive hub.links.all.size = true
    rw [Links.isLive_add, if_pos rfl]
  stopped := nofun
  opened_le := Nat.le_refl opened
  reads_mem := nofun
  writes_mem := nofun

variable {w after : Watch σ}

theorem Timed.wait (h : w.Timed) {time : Instant} (hle : w.now ≤ time) :
    ({ w with now := time } : Watch σ).Timed where
  timers_eq := h.timers_eq
  live := h.live
  stopped := h.stopped
  opened_le := Nat.le_trans h.opened_le hle
  reads_mem other hmem := ⟨(h.reads_mem other hmem).1, Nat.le_trans (h.reads_mem other hmem).2 hle⟩
  writes_mem written hmem := Nat.le_trans (h.writes_mem written hmem) hle

/-! ## What happens around a connection -/

/-- Nothing happens to the connection itself. -/
structure Aside (w after : Watch σ) : Prop where
  now_eq : after.now = w.now
  opened_eq : after.opened = w.opened
  reads_eq : after.reads = w.reads
  writes_eq : after.writes = w.writes
  session_eq : after.connection.session = w.connection.session
  phase_eq : after.connection.phase = w.connection.phase
  capacity_eq : after.connection.outbound.capacity = w.connection.outbound.capacity
  live : w.connection.hasEnded = false →
    w.hub.links.isLive w.connection.session.link = true →
    after.hub.links.isLive w.connection.session.link = true

theorem Aside.refl (w : Watch σ) : w.Aside w := ⟨rfl, rfl, rfl, rfl, rfl, rfl, rfl, fun _ h => h⟩

theorem Aside.timers_eq (h : w.Aside after) : after.timers = w.timers := by
  unfold timers heartbeatAt lastRead
  rw [h.reads_eq, h.writes_eq, h.opened_eq]

/-- What happens aside neither closes nor opens the connection. -/
theorem Aside.hasEnded_eq (h : w.Aside after) :
    after.connection.hasEnded = w.connection.hasEnded := by
  unfold Connection.hasEnded
  rw [h.phase_eq]

theorem Timed.aside (h : w.Timed) (haside : w.Aside after) : after.Timed where
  timers_eq hopen := by
    rw [haside.hasEnded_eq] at hopen
    rw [haside.session_eq, haside.timers_eq]
    exact h.timers_eq hopen
  live hopen := by
    rw [haside.hasEnded_eq] at hopen
    rw [haside.session_eq]
    exact haside.live hopen (h.live hopen)
  stopped hended := by
    rw [haside.hasEnded_eq] at hended
    rw [haside.session_eq]
    exact h.stopped hended
  opened_le := by
    rw [haside.opened_eq, haside.now_eq]
    exact h.opened_le
  reads_mem := by
    rw [haside.reads_eq, haside.opened_eq, haside.now_eq]
    exact h.reads_mem
  writes_mem := by
    rw [haside.writes_eq, haside.now_eq]
    exact h.writes_mem

/-! ## Steps -/

variable [Transport σ]

/-- An event happens. -/
def react (w : Watch σ) (event : Event) : Watch σ :=
  let (connection, hub) := w.connection.handle event w.now w.hub
  { w with
    connection
    hub
    reads := if w.connection.takesChunk event then w.now :: w.reads else w.reads
    writes := match w.connection.completes? event with
      | none => w.writes
      | some what => ⟨w.now, what.isHeartbeat⟩ :: w.writes }

/-- The connection is torn down. -/
def tear (w : Watch σ) (notice : Notice) : Watch σ :=
  let (connection, hub) := w.connection.finish (w.hub.note notice)
  { w with connection, hub }

/-- One step. -/
def step (w : Watch σ) : WatchStep σ → Watch σ
  | .event event => if event ∈ w.connection.due w.now then w.react event else w
  | .wait time =>
    if w.now ≤ time ∧ w.connection.due w.now = [] ∧ w.connection.nextTimer?.all (time ≤ ·) then
      { w with now := time }
    else w
  | .write bytes => { w with connection.inbound := (w.connection.inbound.push bytes).2 }
  | .shut => { w with connection.inbound := w.connection.inbound.close }
  | .drain count => { w with connection.outbound := (w.connection.outbound.pull count).2 }
  | .hangUp =>
    { w with
      connection.inbound := w.connection.inbound.close
      connection.outbound := w.connection.outbound.close }
  | .cancel => { w with connection := w.connection.cancel }
  | .fault reason =>
    let (connection, hub) := w.connection.breakDown reason w.hub
    { w with connection, hub }
  | .surroundings hub =>
    if w.connection.hasEnded || hub.links.isLive w.connection.session.link then { w with hub } else w

/-- Any number of steps. -/
def run (w : Watch σ) (steps : List (WatchStep σ)) : Watch σ := steps.foldl step w

/-! ## What a step can do -/

/-- What a step can do. -/
inductive Moves (w : Watch σ) : WatchStep σ → Watch σ → Prop where
  /-- A due event tears the connection down. -/
  | ends {event : Event} {notice : Notice} (hdue : event ∈ w.connection.due w.now)
    (hends : w.connection.Ends w.now event) : Moves w (.event event) (w.tear notice)
  /-- A due event leaves the connection open. -/
  | reacts {event : Event} (hdue : event ∈ w.connection.due w.now)
    (hstays : w.connection.Stays event w.now w.hub (w.connection.handle event w.now w.hub)) :
    Moves w (.event event) (w.react event)
  /-- Nothing is due, and no timer goes off before. -/
  | waits {time : Instant} (hle : w.now ≤ time) (hquiet : w.connection.due w.now = [])
    (htimer : ∀ timer, w.connection.nextTimer? = some timer → time ≤ timer) :
    Moves w (.wait time) { w with now := time }
  /-- A fault tears the connection down. -/
  | breaks {reason : String} {notice : Notice} (hopen : w.connection.hasEnded = false) :
    Moves w (.fault reason) (w.tear notice)
  | aside {step : WatchStep σ} {after : Watch σ} (haside : w.Aside after)
    (hmild : step.isDisturbing = false →
      after.connection.isUndisturbed = w.connection.isUndisturbed) :
    Moves w step after

/-- A step can do nothing else. -/
theorem moves (w : Watch σ) (step : WatchStep σ) : w.Moves step (w.step step) := by
  cases step with
  | event event =>
    unfold Watch.step
    dsimp only
    split
    · next hdue =>
      have houtcome := Connection.outcome_handle hdue w.hub
      rcases houtcome.ends_or_stays with ⟨notice, heq, hends, htakes, hcompletes⟩ | hstays
      · have hreact : w.react event = w.tear notice := by
          unfold react tear
          rw [heq, htakes, hcompletes]
          rfl
        rw [hreact]
        exact .ends hdue hends
      · exact .reacts hdue hstays
    · exact .aside (.refl w) fun _ => rfl
  | wait time =>
    unfold Watch.step
    dsimp only
    split
    · next hwait =>
      obtain ⟨hle, hquiet, htimer⟩ := hwait
      refine .waits hle hquiet fun timer hnext => ?_
      rw [hnext] at htimer
      simpa using htimer
    · exact .aside (.refl w) fun _ => rfl
  | write bytes => exact .aside ⟨rfl, rfl, rfl, rfl, rfl, rfl, rfl, fun _ h => h⟩ fun _ => rfl
  | shut => exact .aside ⟨rfl, rfl, rfl, rfl, rfl, rfl, rfl, fun _ h => h⟩ nofun
  | drain count => exact .aside ⟨rfl, rfl, rfl, rfl, rfl, rfl, rfl, fun _ h => h⟩ fun _ => rfl
  | hangUp => exact .aside ⟨rfl, rfl, rfl, rfl, rfl, rfl, rfl, fun _ h => h⟩ nofun
  | cancel => exact .aside ⟨rfl, rfl, rfl, rfl, rfl, rfl, rfl, fun _ h => h⟩ nofun
  | fault reason =>
    unfold Watch.step Connection.breakDown
    cases hphase : w.connection.phase with
    | idle => exact .breaks (by rw [Connection.hasEnded, hphase]; rfl)
    | writing what unsent =>
      cases what with
      | heartbeat => exact .breaks (by rw [Connection.hasEnded, hphase]; rfl)
      | reply rest => exact .breaks (by rw [Connection.hasEnded, hphase]; rfl)
    | ended => exact .aside (.refl w) fun _ => rfl
  | surroundings hub =>
    unfold Watch.step
    dsimp only
    split
    · next hguard =>
      refine .aside ⟨rfl, rfl, rfl, rfl, rfl, rfl, rfl, fun hopen _ => ?_⟩ fun _ => rfl
      rwa [hopen, Bool.false_or] at hguard
    · exact .aside (.refl w) fun _ => rfl

/-! ## The timers of a run -/

/-- A connection that is torn down has no timers left. -/
theorem Timed.tear (h : w.Timed) (notice : Notice) : (w.tear notice).Timed where
  timers_eq := nofun
  live := nofun
  stopped _ := rfl
  opened_le := h.opened_le
  reads_mem := h.reads_mem
  writes_mem := h.writes_mem

/-- The timers are put off as the reads and the writes are noted. -/
theorem timers_react (h : w.Timed) (hopen : w.connection.hasEnded = false) (event : Event) :
    (w.connection.clocked event w.now).timers = some (w.react event).timers := by
  have htimers := h.timers_eq hopen
  unfold Connection.clocked react timers heartbeatAt lastRead SessionState.rearmDeadline
    SessionState.postponeHeartbeat
  cases w.connection.takesChunk event <;> cases w.connection.completes? event <;>
    simp [htimers, timers, heartbeatAt, lastRead]

/-- An event that leaves the connection open sets a timer anew, as far as it read or wrote. -/
theorem Timed.react (h : w.Timed) {event : Event} (hdue : event ∈ w.connection.due w.now)
    (hstays : w.connection.Stays event w.now w.hub (w.connection.handle event w.now w.hub)) :
    (w.react event).Timed where
  timers_eq _ := hstays.timers_eq.trans (timers_react h (Connection.hasEnded_of_mem_due hdue) event)
  live _ := by
    show (w.connection.handle event w.now w.hub).2.links.isLive
      (w.connection.handle event w.now w.hub).1.session.link = true
    rw [hstays.links_eq, hstays.link_eq]
    exact h.live (Connection.hasEnded_of_mem_due hdue)
  stopped hended := by
    cases hended.symm.trans hstays.hasEnded_eq
  opened_le := h.opened_le
  reads_mem time hmem := by
    unfold Watch.react at hmem
    dsimp only at hmem
    split at hmem
    · rcases List.mem_cons.mp hmem with rfl | hold
      · exact ⟨h.opened_le, Nat.le_refl _⟩
      · exact h.reads_mem time hold
    · exact h.reads_mem time hmem
  writes_mem written hmem := by
    unfold Watch.react at hmem
    dsimp only at hmem
    split at hmem
    · exact h.writes_mem written hmem
    · rcases List.mem_cons.mp hmem with rfl | hold
      · exact Nat.le_refl _
      · exact h.writes_mem written hold

/-- Every step keeps the timers to the last chunk and the last write. -/
theorem Timed.step (h : w.Timed) (step : WatchStep σ) : (w.step step).Timed := by
  have hmoves := w.moves step
  generalize w.step step = after at hmoves
  cases hmoves with
  | ends hdue hends => exact h.tear _
  | reacts hdue hstays => exact h.react hdue hstays
  | waits hle hquiet htimer => exact h.wait hle
  | breaks hopen => exact h.tear _
  | aside haside hmild => exact h.aside haside

/-- The timers are right after any run. -/
theorem Timed.run (h : w.Timed) (steps : List (WatchStep σ)) : (w.run steps).Timed := by
  induction steps generalizing w with
  | nil => exact h
  | cons step rest ih => exact ih (h.step step)

end Watch

end RealmDirectory
