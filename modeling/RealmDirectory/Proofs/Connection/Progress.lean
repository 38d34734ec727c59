import RealmDirectory.Proofs.Connection.Intake
import RealmDirectory.Proofs.Session.Effect

/-!
# What a due event comes to

An event that is due tears the connection down, or it brings it on: a heartbeat or a reply is begun,
some bytes go into the pipe, a write is completed, or a chunk is read and its envelopes are
dispatched up to the first reply. `Connection.Outcome` says it once for all events, so that no later
proof opens `Connection.handle`.

Without the peer and without time there is only so much to do. Every due event lowers
`Connection.load`, since each byte read gives at most one reply and a completed write puts the next
heartbeat off. So a connection comes to rest whichever due event it takes first.

## Main results

* `Connection.passes_process` — the envelopes of a chunk.
* `Connection.outcome_handle` — a due event.
* `Connection.load_lt_of_mem_due` — every due event leaves less to do.
* `Connection.due_settle` — after settling nothing is due.
-/

namespace RealmDirectory

variable {σ : Type}

/-- An envelope takes one byte at least. -/
theorem Chunk.length_frames_splitAfter (found : List Envelope) (bytes : List UInt8) :
    (Chunk.splitAfter found bytes).frames.length ≤ found.length + bytes.length := by
  fun_induction Chunk.splitAfter found bytes with
  | case1 found bytes hempty => simp
  | case2 found bytes hsome fault hdecode => simp
  | case3 found bytes hsome frame rest hdecode ih =>
    have hshorter := Frame.length_rest_lt hdecode
    rw [List.length_cons] at ih
    omega

/-- There are no more envelopes than bytes, for none is empty. -/
theorem Chunk.length_envelopes_le (bytes : List UInt8) :
    (Chunk.envelopes bytes).length ≤ bytes.length := by
  have hle := Chunk.length_frames_splitAfter [] bytes
  rwa [List.length_nil, Nat.zero_add] at hle

/-- What is taken out of a pipe and what stays in it. -/
theorem Pipe.length_pull_add (pipe : Pipe) (count : Nat) :
    (pipe.pull count).1.length + (pipe.pull count).2.bytes.length = pipe.bytes.length := by
  rw [← List.length_append]
  exact congrArg List.length (List.take_append_drop _ _)

private theorem Pipe.length_pull_pos {pipe : Pipe} (hbytes : pipe.bytes ≠ []) {count : Nat}
    (hcount : 0 < count) : 0 < (pipe.pull count).1.length := by
  show 0 < (pipe.bytes.take count).length
  rw [List.length_take]
  exact Nat.lt_min.mpr ⟨hcount, List.length_pos_iff.mpr hbytes⟩

namespace Connection

variable {c : Connection}

/-! ## What is due -/

/-- What makes an event due while the timers run. -/
def Awaits (c : Connection) (timers : Timers) (now : Instant) (event : Event) : Prop :=
  match c.phase, event with
  | .idle, .shutdown => c.isCancelled = true
  | .idle, .heartbeat => timers.heartbeatAt ≤ now
  | .idle, .deadline => timers.deadlineAt ≤ now
  | .idle, .read => c.inbound.isReadable = true
  | .writing _ _, .write => c.outbound.isOpen = false ∨ 0 < c.outbound.room
  | .writing _ _, .deadline => timers.deadlineAt ≤ now
  | .writing _ _, .shutdown => c.isCancelled = true
  | _, _ => False

/-- An event is due exactly if the connection is open and waits for it. -/
theorem mem_due_iff {event : Event} {now : Instant} :
    event ∈ c.due now ↔
      ∃ timers, c.session.state.timers = some timers ∧ c.Awaits timers now event := by
  unfold due Awaits
  cases c.session.state.timers with
  | none => cases c.phase <;> simp
  | some timers => cases c.phase <;> cases event <;> simp

/-! ## What an event changes -/

/-- Why a due event tears the connection down. -/
def Ends (c : Connection) (now : Instant) : Event → Prop
  | .shutdown => c.isCancelled = true
  | .deadline => ∃ timers, c.session.state.timers = some timers ∧ timers.deadlineAt ≤ now
  | .read => c.inbound.bytes = [] ∧ c.inbound.isOpen = false
  | .write => c.outbound.isOpen = false
  | .heartbeat => False

/-- The event reads a chunk that is not empty. -/
def takesChunk (c : Connection) : Event → Bool
  | .read => c.phase == .idle && !c.inbound.bytes.isEmpty
  | _ => false

/-- What the event completes the write of. -/
def completes? (c : Connection) : Event → Option Writing
  | .write =>
    match c.phase with
    | .writing what unsent =>
      if c.outbound.isOpen && unsent.length ≤ c.outbound.room then some what else none
    | _ => none
  | _ => none

private theorem completes?_write {what : Writing} {unsent : List UInt8}
    (hphase : c.phase = .writing what unsent) :
    c.completes? .write =
      if c.outbound.isOpen && unsent.length ≤ c.outbound.room then some what else none := by
  unfold completes?
  rw [hphase]

theorem takesChunk_read (hphase : c.phase = .idle) (hbytes : c.inbound.bytes ≠ []) :
    c.takesChunk .read = true := by
  unfold takesChunk
  rw [hphase]
  simpa using hbytes

/-- A write ends as soon as there is room for all the rest. -/
theorem completes?_eq_some {what : Writing} {unsent : List UInt8}
    (hphase : c.phase = .writing what unsent) (hopen : c.outbound.isOpen = true)
    (hroom : unsent.length ≤ c.outbound.room) : c.completes? .write = some what := by
  rw [completes?_write hphase, hopen, decide_eq_true hroom]
  rfl

theorem completes?_eq_none {what : Writing} {unsent : List UInt8}
    (hphase : c.phase = .writing what unsent) (hmore : c.outbound.room < unsent.length) :
    c.completes? .write = none := by
  rw [completes?_write hphase, decide_eq_false (Nat.not_le.mpr hmore), Bool.and_false]
  rfl

/-- The timers after an event of an open connection: a chunk that is read puts the deadline off, and
a write that is completed the heartbeat. -/
def clocked (c : Connection) (event : Event) (now : Instant) : SessionState :=
  let state := if c.takesChunk event then c.session.state.rearmDeadline now else c.session.state
  if (c.completes? event).isSome then state.postponeHeartbeat now else state

/-- The connection is open after the event. -/
structure Stays (c : Connection) (event : Event) (now : Instant) (hub : Hub σ)
    (after : Connection × Hub σ) : Prop where
  hasEnded_eq : after.1.hasEnded = false
  timers_eq : after.1.session.state.timers = (c.clocked event now).timers
  link_eq : after.1.session.link = c.session.link
  links_eq : after.2.links = hub.links
  isCancelled_eq : after.1.isCancelled = c.isCancelled
  inbound_eq : after.1.inbound.isOpen = c.inbound.isOpen
  outbound_eq : after.1.outbound.isOpen = c.outbound.isOpen
  capacity_eq : after.1.outbound.capacity = c.outbound.capacity

/-! ## The envelopes of a chunk -/

/-- What dispatching envelopes leaves alone, and what it leads to: nothing is under way, or a reply
with fewer envelopes behind it. -/
structure Passes (c : Connection) (hub : Hub σ) (frames : List Envelope)
    (after : Connection × Hub σ) : Prop where
  inbound_eq : after.1.inbound = c.inbound
  outbound_eq : after.1.outbound = c.outbound
  isCancelled_eq : after.1.isCancelled = c.isCancelled
  link_eq : after.1.session.link = c.session.link
  timers_eq : after.1.session.state.timers = c.session.state.timers
  links_eq : after.2.links = hub.links
  phase : after.1.phase = .idle ∨ ∃ rest unsent, after.1.phase = .writing (.reply rest) unsent ∧
    rest.frames.length < frames.length ∧ unsent.length = 4

theorem Passes.hasEnded_eq {hub : Hub σ} {frames : List Envelope} {after : Connection × Hub σ}
    (h : c.Passes hub frames after) : after.1.hasEnded = false := by
  unfold hasEnded
  rcases h.phase with hphase | ⟨rest, unsent, hphase, -⟩
  · rw [hphase]
    rfl
  · rw [hphase]
    rfl

/-! ## How much there is to do -/

/-- A heartbeat may be begun as soon as nothing is under way. -/
def isBeatDue (c : Connection) (now : Instant) : Bool :=
  c.session.state.timers.any (·.heartbeatAt ≤ now)

/-- A bound on the events that can happen before time goes on, if the peer does nothing: eight for
each byte to be read and each envelope that waits, since an envelope may be answered with four
bytes, and one for each byte to be written. -/
def load (c : Connection) (now : Instant) : Nat :=
  8 * (c.inbound.bytes.length + c.pending.length) +
    match c.phase with
    | .idle => 1 + if c.isBeatDue now then 5 else 0
    | .writing _ unsent => 2 + unsent.length
    | .ended => 0

/-- The count that advancing is given covers the load. -/
theorem load_le_work (c : Connection) (now : Instant) : c.load now ≤ c.work := by
  unfold load work pending
  cases c.phase with
  | idle =>
    dsimp only
    split <;> simp only [List.length_nil] <;> omega
  | writing what unsent =>
    cases what with
    | heartbeat => simp only [List.length_nil]; omega
    | reply rest => dsimp only; omega
  | ended => simp only [List.length_nil]; omega

/-- Nothing is due on a connection that has nothing to do. -/
theorem load_pos_of_mem_due {event : Event} {now : Instant} (h : event ∈ c.due now) :
    8 * c.inbound.bytes.length < c.load now := by
  have hopen := hasEnded_of_mem_due h
  unfold hasEnded at hopen
  unfold load
  cases hphase : c.phase with
  | idle => dsimp only; omega
  | writing what unsent => dsimp only; omega
  | ended =>
    rw [hphase] at hopen
    cases hopen

/-- An idle connection has its waiting bytes to handle, and perhaps a heartbeat. -/
theorem load_idle (hphase : c.phase = .idle) (now : Instant) :
    c.load now = 8 * c.inbound.bytes.length + (1 + if c.isBeatDue now then 5 else 0) := by
  unfold load pending
  rw [hphase]
  rfl

private theorem load_writing {what : Writing} {unsent : List UInt8}
    (hphase : c.phase = .writing what unsent) (now : Instant) :
    c.load now = 8 * (c.inbound.bytes.length + c.pending.length) + (2 + unsent.length) := by
  unfold load
  rw [hphase]

/-- The heartbeats are some time apart. -/
def Beats (c : Connection) : Prop :=
  ∀ period ∈ c.session.state.timers.map (·.heartbeatPeriod), 0 < period

/-- No heartbeat is due when it was put off just now. -/
theorem Beats.isBeatDue_eq (h : c.Beats) {after : Connection} {now : Instant}
    (htimers : after.session.state.timers = (c.session.state.postponeHeartbeat now).timers) :
    after.isBeatDue now = false := by
  unfold isBeatDue
  rw [htimers]
  unfold SessionState.postponeHeartbeat
  cases hsome : c.session.state.timers with
  | none => rfl
  | some timers =>
    have hperiod := h timers.heartbeatPeriod (by rw [hsome]; rfl)
    have hlater : now < now + timers.heartbeatPeriod := Nat.lt_add_of_pos_right hperiod
    exact decide_eq_false (Nat.not_le.mpr hlater)

/-- Dispatching comes to rest, or to a reply of four bytes with fewer envelopes behind it. -/
theorem Passes.load_cases {hub : Hub σ} {frames : List Envelope} {after : Connection × Hub σ}
    (h : c.Passes hub frames after) (now : Instant) :
    after.1.load now = 8 * c.inbound.bytes.length + (1 + if c.isBeatDue now then 5 else 0) ∨
      after.1.load now + 2 ≤ 8 * (c.inbound.bytes.length + frames.length) := by
  rcases h.phase with hphase | ⟨rest, unsent, hphase, hlt, hfour⟩
  · left
    rw [load_idle hphase, h.inbound_eq, isBeatDue, h.timers_eq]
    rfl
  · right
    rw [load_writing hphase, h.inbound_eq, pending_of_reply hphase, hfour]
    omega

/-! ## Dispatching -/

private theorem encode_answer (added : Bool) :
    ∃ bytes, (Session.answer added).encode = .ok bytes ∧ bytes.length = 4 := by
  cases added with
  | true => exact ⟨[6, 1, 0, 1], rfl, rfl⟩
  | false => exact ⟨[6, 1, 0, 0], rfl, rfl⟩

variable [Transport σ]

/-- A session that dispatches keeps its link and its timers. -/
theorem kept_dispatch (session : Session) (envelope : Envelope) (now : Instant) (hub : Hub σ) :
    (session.dispatch envelope now hub).2.1.link = session.link ∧
      (session.dispatch envelope now hub).2.1.state.timers = session.state.timers := by
  rw [session.session_dispatch]
  cases session.taken? hub.links hub.realms envelope with
  | none => exact ⟨rfl, rfl⟩
  | some id => exact ⟨rfl, rfl⟩

/-- Handling envelopes leaves the pipes and the timers alone and ends with the reply to one of
them, or with none left. -/
theorem passes_process (c : Connection) (discarded : Option Discarded) (now : Instant)
    (hub : Hub σ) (frames : List Envelope) :
    c.Passes hub frames (c.process discarded now hub frames) := by
  induction frames generalizing c hub with
  | nil =>
    refine ⟨rfl, rfl, rfl, rfl, rfl, ?_, .inl rfl⟩
    unfold process
    cases discarded <;> rfl
  | cons envelope rest ih =>
    obtain ⟨hlink, htimers⟩ := kept_dispatch c.session envelope now hub
    have hlinks := (c.session.registry_dispatch envelope now hub).2
    have hreply := c.session.reply_dispatch envelope now hub
    unfold process
    generalize c.session.dispatch envelope now hub = result at hlink htimers hlinks hreply
    obtain ⟨reply, session, hub'⟩ := result
    dsimp only at hlink htimers hlinks hreply ⊢
    cases reply with
    | none =>
      have hrest := ih { c with session } hub'
      refine ⟨hrest.inbound_eq, hrest.outbound_eq, hrest.isCancelled_eq, ?_, ?_, ?_, ?_⟩
      · exact hrest.link_eq.trans hlink
      · exact hrest.timers_eq.trans htimers
      · exact hrest.links_eq.trans hlinks
      · rcases hrest.phase with hidle | ⟨behind, unsent, hphase, hlt, hfour⟩
        · exact .inl hidle
        · exact .inr ⟨behind, unsent, hphase, Nat.lt_succ_of_lt hlt, hfour⟩
    | some reply =>
      have hanswer : ∃ bytes, reply.encode = .ok bytes ∧ bytes.length = 4 := by
        split at hreply
        · cases hreply
          exact encode_answer _
        · cases hreply
      obtain ⟨bytes, hbytes, hfour⟩ := hanswer
      unfold send
      simp only [hbytes]
      exact ⟨rfl, rfl, rfl, hlink, htimers, hlinks,
        .inr ⟨⟨rest, discarded⟩, bytes, rfl, Nat.lt_succ_self _, hfour⟩⟩

/-! ## One event -/

/-- What becomes of a connection and the hub by a due event. -/
inductive Outcome (c : Connection) (now : Instant) (hub : Hub σ) :
    Event → Connection × Hub σ → Prop where
  | ends {event : Event} {notice : Notice} (hends : c.Ends now event) :
    Outcome c now hub event (c.finish (hub.note notice))
  /-- A heartbeat is begun. -/
  | beat {timers : Timers} (hphase : c.phase = .idle)
    (htimers : c.session.state.timers = some timers) (hdue : timers.heartbeatAt ≤ now) :
    Outcome c now hub .heartbeat ({ c with phase := .writing .heartbeat [10, 0, 0] }, hub)
  | read {after : Connection × Hub σ} (hphase : c.phase = .idle) (hbytes : c.inbound.bytes ≠ [])
    (hpasses : { c with
        inbound := (c.inbound.pull maxChunk).2
        session.state := c.session.state.rearmDeadline now }.Passes hub
      (Chunk.envelopes (c.inbound.pull maxChunk).1) after) :
    Outcome c now hub .read after
  /-- Some bytes go into the pipe, but not all. -/
  | pushed {what : Writing} {unsent : List UInt8} (hphase : c.phase = .writing what unsent)
    (hopen : c.outbound.isOpen = true) (hroom : 0 < c.outbound.room)
    (hmore : c.outbound.room < unsent.length) :
    Outcome c now hub .write ({ c with
      outbound := (c.outbound.push unsent).2
      phase := .writing what (unsent.drop c.outbound.room) }, hub)
  /-- A heartbeat is completed. -/
  | beaten {unsent : List UInt8} (hphase : c.phase = .writing .heartbeat unsent)
    (hopen : c.outbound.isOpen = true) (hroom : unsent.length ≤ c.outbound.room) :
    Outcome c now hub .write ({ c with
      outbound := (c.outbound.push unsent).2
      session.state := c.session.state.postponeHeartbeat now
      phase := .idle }, hub)
  /-- A reply is completed, and the rest of its chunk is dealt with. -/
  | replied {rest : Chunk RealmOpcode} {unsent : List UInt8} {after : Connection × Hub σ}
    (hphase : c.phase = .writing (.reply rest) unsent) (hopen : c.outbound.isOpen = true)
    (hroom : unsent.length ≤ c.outbound.room)
    (hpasses : { c with
        outbound := (c.outbound.push unsent).2
        session.state := c.session.state.postponeHeartbeat now }.Passes hub rest.frames after) :
    Outcome c now hub .write after

private theorem outcome_read (hphase : c.phase = .idle) (hreadable : c.inbound.isReadable = true)
    (now : Instant) (hub : Hub σ) : c.Outcome now hub .read (c.read now hub) := by
  unfold read
  dsimp only
  split
  · next hempty =>
    have hbytes : c.inbound.bytes = [] := by
      have htaken : c.inbound.bytes.take maxChunk = [] := List.isEmpty_iff.mp hempty
      exact (List.take_eq_nil_iff.mp htaken).resolve_left (by decide)
    refine .ends ⟨hbytes, ?_⟩
    unfold Pipe.isReadable at hreadable
    rw [hbytes] at hreadable
    simpa using hreadable
  · next hsome =>
    refine .read hphase (fun hbytes => hsome ?_) (passes_process _ _ _ _ _)
    unfold Pipe.pull
    rw [hbytes]
    rfl

private theorem outcome_write {what : Writing} {unsent : List UInt8}
    (hphase : c.phase = .writing what unsent)
    (hready : c.outbound.isOpen = false ∨ 0 < c.outbound.room) (now : Instant) (hub : Hub σ) :
    c.Outcome now hub .write (c.write what unsent now hub) := by
  unfold write
  cases hopen : c.outbound.isOpen with
  | false => exact .ends hopen
  | true =>
    have hroom : 0 < c.outbound.room := hready.resolve_left (by rw [hopen]; exact nofun)
    by_cases hmore : c.outbound.room < unsent.length
    · have hleft : (unsent.drop c.outbound.room).isEmpty = false := by
        rw [List.isEmpty_eq_false_iff, Ne, List.drop_eq_nil_iff]
        exact Nat.not_le.mpr hmore
      simp only [Bool.not_true, Pipe.push, hleft]
      exact .pushed hphase hopen hroom hmore
    · have hfits : unsent.length ≤ c.outbound.room := Nat.not_lt.mp hmore
      have hdone : (unsent.drop c.outbound.room).isEmpty = true := by
        rw [List.isEmpty_iff, List.drop_eq_nil_iff]
        exact hfits
      simp only [Bool.not_true, Pipe.push, hdone]
      cases what with
      | heartbeat => exact .beaten hphase hopen hfits
      | reply rest => exact .replied hphase hopen hfits (passes_process _ _ _ _ _)

/-- What a due event comes to. -/
theorem outcome_handle {event : Event} {now : Instant} (h : event ∈ c.due now) (hub : Hub σ) :
    c.Outcome now hub event (c.handle event now hub) := by
  obtain ⟨timers, htimers, hawaits⟩ := mem_due_iff.mp h
  unfold Awaits at hawaits
  unfold handle
  cases hphase : c.phase with
  | idle =>
    rw [hphase] at hawaits
    cases event with
    | shutdown => exact .ends hawaits
    | heartbeat => exact .beat hphase htimers hawaits
    | deadline => exact .ends ⟨timers, htimers, hawaits⟩
    | read => exact outcome_read hphase hawaits now hub
    | write => exact hawaits.elim
  | writing what unsent =>
    rw [hphase] at hawaits
    cases event with
    | shutdown => exact .ends hawaits
    | heartbeat => exact hawaits.elim
    | deadline => exact .ends ⟨timers, htimers, hawaits⟩
    | read => exact hawaits.elim
    | write => exact outcome_write hphase hawaits now hub
  | ended =>
    rw [hphase] at hawaits
    cases event <;> exact hawaits.elim

/-- A due event tears the connection down, and then it reads and completes nothing, or leaves it
open. -/
theorem Outcome.ends_or_stays {event : Event} {now : Instant} {hub : Hub σ}
    {after : Connection × Hub σ} (h : c.Outcome now hub event after) :
    (∃ notice, after = c.finish (hub.note notice) ∧ c.Ends now event ∧
        c.takesChunk event = false ∧ c.completes? event = none) ∨
      c.Stays event now hub after := by
  cases h with
  | @ends event notice hends =>
    refine .inl ⟨notice, rfl, hends, ?_, ?_⟩
    · cases event with
      | read =>
        unfold takesChunk
        rw [hends.1]
        exact Bool.and_false _
      | _ => rfl
    · cases event with
      | write =>
        have hclosed : c.outbound.isOpen = false := hends
        cases hphase : c.phase with
        | writing what unsent =>
          rw [completes?_write hphase, hclosed]
          rfl
        | _ => rw [completes?, hphase]
      | _ => rfl
  | beat hphase htimers hdue => exact .inr ⟨rfl, rfl, rfl, rfl, rfl, rfl, rfl, rfl⟩
  | read hphase hbytes hpasses =>
    refine .inr ⟨hpasses.hasEnded_eq, ?_, hpasses.link_eq, hpasses.links_eq,
      hpasses.isCancelled_eq, ?_, ?_, ?_⟩
    · rw [hpasses.timers_eq, clocked, takesChunk_read hphase hbytes]
      rfl
    · rw [hpasses.inbound_eq]
      rfl
    · rw [hpasses.outbound_eq]
    · rw [hpasses.outbound_eq]
  | pushed hphase hopen hroom hmore =>
    refine .inr ⟨rfl, ?_, rfl, rfl, rfl, rfl, rfl, rfl⟩
    rw [clocked, completes?_eq_none hphase hmore]
    rfl
  | beaten hphase hopen hroom =>
    refine .inr ⟨rfl, ?_, rfl, rfl, rfl, rfl, rfl, rfl⟩
    rw [clocked, completes?_eq_some hphase hopen hroom]
    rfl
  | replied hphase hopen hroom hpasses =>
    refine .inr ⟨hpasses.hasEnded_eq, ?_, hpasses.link_eq, hpasses.links_eq,
      hpasses.isCancelled_eq, ?_, ?_, ?_⟩
    · rw [hpasses.timers_eq, clocked, completes?_eq_some hphase hopen hroom]
      rfl
    · rw [hpasses.inbound_eq]
    · rw [hpasses.outbound_eq]
      rfl
    · rw [hpasses.outbound_eq]
      rfl

/-! ## Coming to rest -/

/-- The outcome of a due event leaves less to do. -/
theorem Outcome.load_lt {event : Event} {now : Instant} {hub : Hub σ}
    {after : Connection × Hub σ} (h : c.Outcome now hub event after)
    (hload : 8 * c.inbound.bytes.length < c.load now) (hbeats : c.Beats) :
    after.1.load now < c.load now := by
  cases h with
  | ends hends => exact hload
  | beat hphase htimers hdue =>
    have hbeat : c.isBeatDue now = true := by
      rw [isBeatDue, htimers, Option.any_some, decide_eq_true hdue]
    rw [load_idle hphase, hbeat, load_writing rfl]
    show 8 * (c.inbound.bytes.length + 0) + (2 + 3) < 8 * c.inbound.bytes.length + (1 + 5)
    omega
  | read hphase hbytes hpasses =>
    have hcases := hpasses.load_cases now
    have hframes := Chunk.length_envelopes_le (c.inbound.pull maxChunk).1
    have hbeat : ({ c with
        inbound := (c.inbound.pull maxChunk).2
        session.state := c.session.state.rearmDeadline now } : Connection).isBeatDue now =
        c.isBeatDue now := by
      unfold isBeatDue SessionState.rearmDeadline
      exact Option.any_map
    have hsplit := c.inbound.length_pull_add maxChunk
    have htaken : 0 < (c.inbound.pull maxChunk).1.length :=
      Pipe.length_pull_pos hbytes (by decide)
    rw [hbeat] at hcases
    rw [load_idle hphase]
    dsimp only at hcases
    omega
  | @pushed what unsent hphase hopen hroom hmore =>
    have hpending : ({ c with
        outbound := (c.outbound.push unsent).2
        phase := .writing what (unsent.drop c.outbound.room) } : Connection).pending =
        c.pending := by
      unfold pending
      rw [hphase]
      cases what <;> rfl
    rw [load_writing hphase, load_writing rfl, hpending, List.length_drop]
    dsimp only
    omega
  | beaten hphase hopen hroom =>
    rw [load_idle rfl, hbeats.isBeatDue_eq rfl, load_writing hphase]
    simp only [Bool.false_eq_true, if_false]
    omega
  | replied hphase hopen hroom hpasses =>
    have hcases := hpasses.load_cases now
    rw [hbeats.isBeatDue_eq rfl] at hcases
    rw [load_writing hphase, pending_of_reply hphase]
    simp only [Bool.false_eq_true, if_false] at hcases
    omega

/-- The timers are put off, but the heartbeats stay as far apart as they are. -/
theorem Beats.clocked (hbeats : c.Beats) (event : Event) (now : Instant) :
    ∀ period ∈ (c.clocked event now).timers.map (·.heartbeatPeriod), 0 < period := by
  have hrearm : (c.session.state.rearmDeadline now).timers.map (·.heartbeatPeriod) =
      c.session.state.timers.map (·.heartbeatPeriod) := Option.map_map _ _ _
  have hpostpone : ∀ state : SessionState,
      (state.postponeHeartbeat now).timers.map (·.heartbeatPeriod) =
        state.timers.map (·.heartbeatPeriod) := fun _ => Option.map_map _ _ _
  unfold Connection.clocked
  cases c.takesChunk event <;> cases (c.completes? event).isSome
  · exact hbeats
  · exact (hpostpone _).symm ▸ hbeats
  · exact hrearm.symm ▸ hbeats
  · exact ((hpostpone _).trans hrearm).symm ▸ hbeats

/-- No event changes the time between the heartbeats. -/
theorem Outcome.beats {event : Event} {now : Instant} {hub : Hub σ}
    {after : Connection × Hub σ} (h : c.Outcome now hub event after) (hbeats : c.Beats) :
    after.1.Beats := by
  rcases h.ends_or_stays with ⟨notice, rfl, -⟩ | hstays
  · exact nofun
  · unfold Beats
    rw [hstays.timers_eq]
    exact hbeats.clocked event now

/-- Every due event leaves less to do. -/
theorem load_lt_of_mem_due (hbeats : c.Beats) {event : Event} {now : Instant}
    (h : event ∈ c.due now) (hub : Hub σ) :
    (c.handle event now hub).1.load now < c.load now :=
  (outcome_handle h hub).load_lt (load_pos_of_mem_due h) hbeats

/-- As many events as the load says are enough to leave none due. -/
theorem due_advance (hbeats : c.Beats) {now : Instant} {count : Nat} (hload : c.load now ≤ count)
    (hub : Hub σ) : (advance now count c hub).1.due now = [] := by
  induction count generalizing c hub with
  | zero =>
    refine List.eq_nil_iff_forall_not_mem.mpr fun event hmem => ?_
    exact Nat.not_lt_zero _ (Nat.lt_of_lt_of_le (load_pos_of_mem_due hmem) hload)
  | succ count ih =>
    unfold advance
    cases hdue : c.due now with
    | nil => exact hdue
    | cons event rest =>
      have hmem : event ∈ c.due now := hdue ▸ List.mem_cons_self
      have hless := load_lt_of_mem_due hbeats hmem hub
      exact ih ((outcome_handle hmem hub).beats hbeats) (by omega) _

/-- The steps that settling allows for are enough: nothing is due after it. -/
theorem due_settle (hbeats : c.Beats) (now : Instant) (hub : Hub σ) :
    (c.settle now hub).1.due now = [] := due_advance hbeats (c.load_le_work now) hub

end Connection

end RealmDirectory
