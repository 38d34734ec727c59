import Mathlib.Data.List.Induction
import RealmDirectory.Connection
import RealmDirectory.Hub.Mailbox
import RealmDirectory.Proofs.Frame.Chunk

/-!
# What a connection takes in

The bytes a peer writes reach the session as chunks: whatever one read finds in the pipe. Every
chunk is split on its own, so where the stream is cut decides what is dispatched. `handleLogged` is
`Connection.handle` with an account of it, the chunks that were read and the envelopes that were
dispatched; a `Feed` is a connection with this account and with the bytes that its peer got into
the pipe, whatever else happens at its other end and to the shared state.

As long as the connection is open, what was dispatched, with what waits behind a reply, is what the
chunks hold one by one. These are the envelopes that were written if and only if every cut fell
between two of them: whatever is behind the last whole envelope of a chunk is given up, and what
the next chunk begins with is read as if an envelope began there.

## Main definitions

* `Connection.handleLogged` — an event, with what was read and dispatched.
* `Feed.run` — a connection whose peer writes.
* `CutsBetween` — the cuts fall between the envelopes.

## Main results

* `Connection.takesIn` — the account of one event.
* `cutsBetween_iff` — the chunks hold the envelopes exactly if the cuts fall between them.
* `Feed.intake_run` — the account of a run.
-/

namespace RealmDirectory

/-- The envelopes found in a chunk. -/
def Chunk.envelopes (bytes : List UInt8) : List Envelope :=
  (Chunk.split bytes : Chunk RealmOpcode).frames

/-! ## Where a stream is cut -/

/-- The chunks of a stream of envelopes end between two of them, each. -/
def CutsBetween (envelopes : List Envelope) (chunks : List (List UInt8)) : Prop :=
  ∀ front, front <+: chunks →
    ∃ group, group <+: envelopes ∧ Frame.encodeAll group = .ok front.flatten

section Cuts

variable {envelopes : List Envelope} {chunks : List (List UInt8)} {rest : List UInt8}

/-- What is found in the chunks of a stream was written there, with gaps perhaps. -/
theorem Chunk.exists_encodeAll_envelopes (chunks : List (List UInt8)) :
    ∃ bytes, Frame.encodeAll (chunks.flatMap Chunk.envelopes) = .ok bytes ∧
      bytes.length ≤ chunks.flatten.length := by
  induction chunks with
  | nil => exact ⟨[], rfl, le_rfl⟩
  | cons chunk chunks ih =>
    have hspells : (split chunk : Chunk RealmOpcode).Spells chunk := spells_split chunk
    obtain ⟨head, hhead, hchunk⟩ := hspells.whole
    obtain ⟨tail, htail, hle⟩ := ih
    refine ⟨head ++ tail, Frame.encodeAll_append_eq_ok.mpr ⟨head, tail, hhead, htail, rfl⟩, ?_⟩
    have hlength := congrArg List.length hchunk
    rw [List.length_append] at hlength
    rw [List.flatten_cons, List.length_append, List.length_append]
    omega

/-- If the chunks hold all that was written so far, so does every front of them. -/
theorem cutsBetween_of_append {later : List Envelope}
    (h : Frame.encodeAll (chunks.flatMap Chunk.envelopes) = .ok chunks.flatten) :
    CutsBetween (chunks.flatMap Chunk.envelopes ++ later) chunks := by
  rintro front ⟨back, rfl⟩
  refine ⟨front.flatMap Chunk.envelopes, ?_, ?_⟩
  · rw [List.flatMap_append, List.append_assoc]
    exact List.prefix_append _ _
  · rw [List.flatMap_append] at h
    obtain ⟨first, second, hfirst, hsecond, heq⟩ := Frame.encodeAll_append_eq_ok.mp h
    obtain ⟨first', hfirst', hle⟩ := Chunk.exists_encodeAll_envelopes front
    obtain ⟨second', hsecond', hle'⟩ := Chunk.exists_encodeAll_envelopes back
    cases Except.ok.inj (hfirst.symm.trans hfirst')
    cases Except.ok.inj (hsecond.symm.trans hsecond')
    -- neither half is longer than its chunks, so none has a gap
    rw [List.flatten_append] at heq
    have hlength := congrArg List.length heq
    rw [List.length_append, List.length_append] at hlength
    rw [hfirst, (List.append_inj heq (by omega)).1]

/-- If all cuts fall between envelopes, the chunks give together what the stream gives. -/
theorem CutsBetween.split_flatten (h : CutsBetween envelopes chunks) :
    (Chunk.split chunks.flatten : Chunk RealmOpcode) = ⟨chunks.flatMap Chunk.envelopes, none⟩ := by
  induction chunks using List.reverseRecOn with
  | nil => exact Chunk.split_nil
  | append_singleton chunks chunk ih =>
    have hbefore := ih fun front hfront => h front (hfront.trans (List.prefix_append _ _))
    obtain ⟨group, -, hgroup⟩ := h _ (List.prefix_refl _)
    have hsplit := Chunk.split_eq_of_encodeAll hgroup
    have hfault : (Chunk.split chunks.flatten : Chunk RealmOpcode).fault = none := by
      rw [hbefore]
      rfl
    rw [List.flatten_concat] at hsplit ⊢
    rw [Chunk.split_append hfault, hbefore] at hsplit ⊢
    rw [List.flatMap_append, List.flatMap_singleton]
    exact congrArg (Chunk.mk _) (congrArg Chunk.discarded hsplit)

/-- The chunks of a stream hold the envelopes it begins with, and none is given up, if and only if
the cuts fall between envelopes. -/
theorem cutsBetween_iff (h : Frame.encodeAll envelopes = .ok (chunks.flatten ++ rest)) :
    (∃ later, Frame.encodeAll later = .ok rest ∧
      chunks.flatMap Chunk.envelopes ++ later = envelopes) ↔ CutsBetween envelopes chunks := by
  constructor
  · rintro ⟨later, hlater, rfl⟩
    refine cutsBetween_of_append ?_
    obtain ⟨first, second, hfirst, hsecond, heq⟩ := Frame.encodeAll_append_eq_ok.mp h
    cases Except.ok.inj (hsecond.symm.trans hlater)
    rw [hfirst, List.append_cancel_right heq]
  · intro hcuts
    obtain ⟨group, ⟨later, rfl⟩, hgroup⟩ := hcuts _ (List.prefix_refl _)
    have hfound : group = chunks.flatMap Chunk.envelopes :=
      congrArg Chunk.frames ((Chunk.split_eq_of_encodeAll hgroup).symm.trans hcuts.split_flatten)
    obtain ⟨first, second, hfirst, hsecond, heq⟩ := Frame.encodeAll_append_eq_ok.mp h
    cases Except.ok.inj (hfirst.symm.trans hgroup)
    exact ⟨later, List.append_cancel_left heq ▸ hsecond, by rw [hfound]⟩

end Cuts

/-! ## One event -/

/-- What a connection took in, in order. -/
structure Intake where
  /-- The chunks it read. -/
  chunks : List (List UInt8)
  /-- The envelopes it dispatched. -/
  dispatched : List Envelope
  deriving DecidableEq

namespace Connection

/-- The envelopes of the chunk under way that wait for a reply to be written. -/
def pending (c : Connection) : List Envelope :=
  match c.phase with
  | .writing (.reply rest) _ => rest.frames
  | _ => []

/-- Nothing is due on a connection that has ended. -/
theorem hasEnded_of_mem_due {c : Connection} {event : Event} {now : Instant}
    (h : event ∈ c.due now) : c.hasEnded = false := by
  unfold due at h
  unfold hasEnded
  split at h
  · cases h
  · cases h
  · next hphase _ =>
    rw [hphase]
    rfl
  · next hphase _ =>
    rw [hphase]
    rfl

theorem pending_of_reply {c : Connection} {rest : Chunk RealmOpcode} {unsent : List UInt8}
    (h : c.phase = .writing (.reply rest) unsent) : c.pending = rest.frames := by
  rw [pending, h]

variable {σ : Type} [Transport σ]

/-- `process`, with the envelopes it dispatches. -/
def processLogged (c : Connection) (discarded : Option Discarded) (now : Instant) (hub : Hub σ) :
    List Envelope → List Envelope × Connection × Hub σ
  | [] => ([], c.process discarded now hub [])
  | envelope :: rest =>
    match c.session.dispatch envelope now hub with
    | (none, session, hub) =>
      let (dispatched, after) := { c with session }.processLogged discarded now hub rest
      (envelope :: dispatched, after)
    | (some reply, session, hub) =>
      ([envelope], { c with session }.send (.reply ⟨rest, discarded⟩) reply hub)

/-- `read`, with what is taken in. -/
def readLogged (c : Connection) (now : Instant) (hub : Hub σ) : Intake × Connection × Hub σ :=
  let (bytes, inbound) := c.inbound.pull maxChunk
  if bytes.isEmpty then (⟨[], []⟩, c.finish (hub.note (.hungUp c.session.peer)))
  else
    let chunk : Chunk RealmOpcode := Chunk.split bytes
    let c := { c with inbound, session.state := c.session.state.rearmDeadline now }
    let (dispatched, after) := c.processLogged chunk.discarded now hub chunk.frames
    (⟨[bytes], dispatched⟩, after)

/-- `write`, with what is taken in. -/
def writeLogged (c : Connection) (what : Writing) (unsent : List UInt8) (now : Instant)
    (hub : Hub σ) : Intake × Connection × Hub σ :=
  if !c.outbound.isOpen then (⟨[], []⟩, c.fail what "broken pipe" hub)
  else
    let (unsent, outbound) := c.outbound.push unsent
    if !unsent.isEmpty then (⟨[], []⟩, { c with outbound, phase := .writing what unsent }, hub)
    else
      let c := { c with outbound, session.state := c.session.state.postponeHeartbeat now }
      match what with
      | .heartbeat => (⟨[], []⟩, { c with phase := .idle }, hub)
      | .reply rest =>
        let (dispatched, after) := c.processLogged rest.discarded now hub rest.frames
        (⟨[], dispatched⟩, after)

/-- `handle`, with what is taken in. -/
def handleLogged (c : Connection) (event : Event) (now : Instant) (hub : Hub σ) :
    Intake × Connection × Hub σ :=
  match c.phase, event with
  | .idle, .read => c.readLogged now hub
  | .writing what unsent, .write => c.writeLogged what unsent now hub
  | _, _ => (⟨[], []⟩, c.handle event now hub)

/-! ### The account changes nothing -/

private theorem processLogged_snd (c : Connection) (discarded : Option Discarded) (now : Instant)
    (hub : Hub σ) (frames : List Envelope) :
    (c.processLogged discarded now hub frames).2 = c.process discarded now hub frames := by
  induction frames generalizing c hub with
  | nil => rfl
  | cons envelope rest ih =>
    rw [processLogged, process]
    rcases c.session.dispatch envelope now hub with ⟨_ | reply, session, hub⟩
    · exact ih _ _
    · rfl

private theorem readLogged_snd (c : Connection) (now : Instant) (hub : Hub σ) :
    (c.readLogged now hub).2 = c.read now hub := by
  unfold readLogged read
  dsimp only
  split
  · rfl
  · exact processLogged_snd _ _ _ _ _

private theorem writeLogged_snd (c : Connection) (what : Writing) (unsent : List UInt8)
    (now : Instant) (hub : Hub σ) :
    (c.writeLogged what unsent now hub).2 = c.write what unsent now hub := by
  unfold writeLogged write
  dsimp only
  split
  · rfl
  · split
    · rfl
    · cases what with
      | heartbeat => rfl
      | reply rest => exact processLogged_snd _ _ _ _ _

private theorem handleLogged_snd (c : Connection) (event : Event) (now : Instant) (hub : Hub σ) :
    (c.handleLogged event now hub).2 = c.handle event now hub := by
  unfold handleLogged
  split
  · next hphase => simp only [readLogged_snd, handle, hphase]
  · next hphase => simp only [writeLogged_snd, handle, hphase]
  · rfl

/-! ### What one event takes in -/

/-- What was taken in on the way from one state of a connection to another accounts for the bytes
that left the pipe and for the envelopes that waited or were found in them. -/
structure TakesIn (c : Connection) (intake : Intake) (after : Connection) : Prop where
  bytes : intake.chunks.flatten ++ after.inbound.bytes = c.inbound.bytes
  bounded : ∀ chunk ∈ intake.chunks, chunk ≠ [] ∧ chunk.length ≤ maxChunk
  begun : intake.dispatched <+: c.pending ++ intake.chunks.flatMap Chunk.envelopes
  completed : after.hasEnded = false →
    intake.dispatched ++ after.pending = c.pending ++ intake.chunks.flatMap Chunk.envelopes

section Events

variable {c after : Connection}

/-- Nothing is taken in when the bytes and what waits stay where they are, and nothing matters any
more when the connection ends. -/
theorem takesIn_nothing (hbytes : after.inbound.bytes = c.inbound.bytes)
    (hpending : after.hasEnded = false → after.pending = c.pending) :
    c.TakesIn ⟨[], []⟩ after where
  bytes := hbytes
  bounded := nofun
  begun := List.nil_prefix
  completed h := (hpending h).trans (List.append_nil _).symm

private theorem takesIn_finish (c : Connection) (hub : Hub σ) :
    c.TakesIn ⟨[], []⟩ (c.finish hub).1 := takesIn_nothing rfl nofun

private theorem takesIn_fail (c : Connection) (what : Writing) (reason : String) (hub : Hub σ) :
    c.TakesIn ⟨[], []⟩ (c.fail what reason hub).1 := takesIn_finish c _

/-- A connection that begins to write either ends or has the envelope's bytes before it. -/
theorem send_cases (c : Connection) (what : Writing) (envelope : Envelope) (hub : Hub σ) :
    (c.send what envelope hub).1.inbound.bytes = c.inbound.bytes ∧
      ((c.send what envelope hub).1.hasEnded = true ∨
        ∃ bytes, (c.send what envelope hub).1.phase = .writing what bytes) := by
  unfold send
  split
  · exact ⟨rfl, .inl rfl⟩
  · exact ⟨rfl, .inr ⟨_, rfl⟩⟩

/-- The envelopes of a chunk are dispatched up to the first reply, and the others wait for it. -/
theorem processLogged_spec (c : Connection) (discarded : Option Discarded) (now : Instant)
    (hub : Hub σ) (frames : List Envelope) :
    let logged := c.processLogged discarded now hub frames
    logged.2.1.inbound.bytes = c.inbound.bytes ∧ logged.1 <+: frames ∧
      (logged.2.1.hasEnded = false → logged.1 ++ logged.2.1.pending = frames) := by
  induction frames generalizing c hub with
  | nil => exact ⟨rfl, List.nil_prefix, fun _ => rfl⟩
  | cons envelope rest ih =>
    rw [processLogged]
    rcases c.session.dispatch envelope now hub with ⟨_ | reply, session, hub⟩
    · obtain ⟨hbytes, hprefix, hrest⟩ := ih { c with session } hub
      exact ⟨hbytes, List.prefix_cons_inj envelope |>.mpr hprefix,
        fun hopen => congrArg (envelope :: ·) (hrest hopen)⟩
    · obtain ⟨hbytes, hphase⟩ :=
        send_cases { c with session } (.reply ⟨rest, discarded⟩) reply hub
      refine ⟨hbytes, ⟨rest, rfl⟩, fun hopen => ?_⟩
      obtain ⟨bytes, hwriting⟩ := hphase.resolve_left (Bool.eq_false_iff.mp hopen)
      exact congrArg (envelope :: ·) (pending_of_reply hwriting)

/-- A read takes its bytes in as one chunk, and hands on what the chunk gives. -/
theorem takesIn_readLogged (hphase : c.phase = .idle) (now : Instant) (hub : Hub σ) :
    c.TakesIn (c.readLogged now hub).1 (c.readLogged now hub).2.1 := by
  unfold readLogged
  dsimp only [Pipe.pull]
  split
  · exact takesIn_finish c _
  next hne =>
  have hpending : c.pending = [] := by
    rw [pending, hphase]
  obtain ⟨hbytes, hprefix, hrest⟩ := processLogged_spec
    { c with
      inbound := { c.inbound with bytes := c.inbound.bytes.drop maxChunk }
      session.state := c.session.state.rearmDeadline now }
    (Chunk.split (c.inbound.bytes.take maxChunk) : Chunk RealmOpcode).discarded now hub
    (Chunk.split (c.inbound.bytes.take maxChunk) : Chunk RealmOpcode).frames
  constructor
  case bytes =>
    rw [hbytes, List.flatten_singleton]
    exact List.take_append_drop _ _
  case bounded =>
    intro chunk hmem
    cases List.mem_singleton.mp hmem
    exact ⟨by simpa using hne, List.length_take_le _ _⟩
  case begun =>
    rw [hpending, List.nil_append, List.flatMap_singleton]
    exact hprefix
  case completed =>
    intro h
    rw [hpending, List.nil_append, List.flatMap_singleton]
    exact hrest h

/-- A write that ends a reply goes on with the envelopes of its chunk. -/
theorem takesIn_writeLogged {what : Writing} {unsent : List UInt8}
    (hphase : c.phase = .writing what unsent) (now : Instant) (hub : Hub σ) :
    c.TakesIn (c.writeLogged what unsent now hub).1 (c.writeLogged what unsent now hub).2.1 := by
  unfold writeLogged
  dsimp only
  split
  · exact takesIn_fail c _ _ _
  split
  · refine takesIn_nothing rfl fun _ => ?_
    rw [pending, pending, hphase]
    cases what <;> rfl
  cases what with
  | heartbeat =>
    refine takesIn_nothing rfl fun _ => ?_
    rw [pending, pending, hphase]
  | reply rest =>
    have hpending := pending_of_reply hphase
    obtain ⟨hbytes, hprefix, hrest⟩ := processLogged_spec
      { c with
        outbound := (c.outbound.push unsent).2
        session.state := c.session.state.postponeHeartbeat now } rest.discarded now hub rest.frames
    constructor
    case bytes => exact hbytes
    case bounded => exact nofun
    case begun =>
      rw [hpending, List.flatMap_nil, List.append_nil]
      exact hprefix
    case completed =>
      intro h
      rw [hpending, List.flatMap_nil, List.append_nil]
      exact hrest h

/-- What an event takes in accounts for what it changes. -/
theorem takesIn (c : Connection) (event : Event) (now : Instant) (hub : Hub σ) :
    c.TakesIn (c.handleLogged event now hub).1 (c.handle event now hub).1 := by
  rw [← handleLogged_snd]
  unfold handleLogged
  split
  · next hphase => exact takesIn_readLogged hphase now hub
  · next hphase => exact takesIn_writeLogged hphase now hub
  next hread hwrite =>
  unfold handle
  split
  · exact takesIn_finish c _
  · next hphase =>
    obtain ⟨hbytes, hphase'⟩ := send_cases c .heartbeat Envelope.heartbeat hub
    refine takesIn_nothing hbytes fun hopen => ?_
    obtain ⟨bytes, hwriting⟩ := hphase'.resolve_left (by rw [hopen]; exact nofun)
    rw [pending, pending, hwriting, hphase]
  · exact takesIn_finish c _
  · next hphase => exact (hread hphase rfl).elim
  · next hphase => exact (hwrite _ _ hphase rfl).elim
  · exact takesIn_fail c _ _ _
  · exact takesIn_fail c _ _ _
  · exact takesIn_nothing rfl fun _ => rfl

end Events

end Connection

/-! ## Runs -/

/-- A connection with what its peer got into the pipe and what it took in. -/
structure Feed (σ : Type) where
  connection : Connection
  hub : Hub σ
  /-- The bytes that went into the pipe from the peer. -/
  written : List UInt8
  intake : Intake

/-- What can happen to a connection and around it. -/
inductive FeedStep (σ : Type) where
  /-- An event of the connection, if it is due. -/
  | event (event : Event) (now : Instant)
  /-- The peer writes, as far as there is room. -/
  | write (bytes : List UInt8)
  /-- The peer writes no more. -/
  | shut
  /-- The peer does something to the pipe it reads from. -/
  | outbound (pipe : Pipe)
  /-- The connection is asked to end. -/
  | cancel
  /-- Others change the shared state. -/
  | surroundings (hub : Hub σ)

namespace Feed

variable {σ : Type}

/-- A new connection whose timers run. -/
def start (peer : Endpoint) (capacity : Nat) (opened : Instant) (hub : Hub σ) : Feed σ :=
  let (connection, hub) := Connection.create peer capacity hub
  let (connection, hub) := connection.arm opened hub
  ⟨connection, hub, [], ⟨[], []⟩⟩

/-- What was taken in accounts for the bytes of the peer: the chunks are what was read of them, and
the envelopes of each chunk were dispatched in their order or wait for a reply to be written. When
the connection ends, the last ones may be missing. -/
structure Accounted (feed : Feed σ) : Prop where
  bytes : feed.intake.chunks.flatten ++ feed.connection.inbound.bytes = feed.written
  bounded : ∀ chunk ∈ feed.intake.chunks, chunk ≠ [] ∧ chunk.length ≤ maxChunk
  begun : feed.intake.dispatched <+: feed.intake.chunks.flatMap Chunk.envelopes
  completed : feed.connection.hasEnded = false →
    feed.intake.dispatched ++ feed.connection.pending =
      feed.intake.chunks.flatMap Chunk.envelopes

private theorem accounted_start (peer : Endpoint) (capacity : Nat) (opened : Instant)
    (hub : Hub σ) : (start peer capacity opened hub).Accounted where
  bytes := rfl
  bounded := nofun
  begun := List.nil_prefix
  completed _ := rfl

variable [Transport σ]

/-- One step. -/
def step (feed : Feed σ) : FeedStep σ → Feed σ
  | .event event now =>
    if event ∈ feed.connection.due now then
      let (connection, hub) := feed.connection.handle event now feed.hub
      let intake := (feed.connection.handleLogged event now feed.hub).1
      { feed with
        connection
        hub
        intake := ⟨feed.intake.chunks ++ intake.chunks,
          feed.intake.dispatched ++ intake.dispatched⟩ }
    else feed
  | .write bytes =>
    { feed with
      connection.inbound := (feed.connection.inbound.push bytes).2
      written := feed.written ++ bytes.take feed.connection.inbound.room }
  | .shut => { feed with connection.inbound := feed.connection.inbound.close }
  | .outbound pipe => { feed with connection.outbound := pipe }
  | .cancel => { feed with connection := feed.connection.cancel }
  | .surroundings hub => { feed with hub }

/-- Any number of steps. -/
def run (feed : Feed σ) (steps : List (FeedStep σ)) : Feed σ := steps.foldl step feed

theorem Accounted.event {feed : Feed σ} (h : feed.Accounted) (event : Event) (now : Instant) :
    (feed.step (.event event now)).Accounted := by
  unfold step
  dsimp only
  split
  case isFalse => exact h
  case isTrue hdue =>
    have htaken := feed.connection.takesIn event now feed.hub
    have hbefore := h.completed (Connection.hasEnded_of_mem_due hdue)
    constructor
    · dsimp only
      rw [List.flatten_append, List.append_assoc, htaken.bytes, h.bytes]
    · intro chunk hmem
      rcases List.mem_append.mp hmem with hold | hnew
      · exact h.bounded chunk hold
      · exact htaken.bounded chunk hnew
    · dsimp only
      rw [List.flatMap_append, ← hbefore, List.append_assoc]
      exact (List.prefix_append_right_inj _).mpr htaken.begun
    · dsimp only
      intro hopen
      rw [List.flatMap_append, ← hbefore, List.append_assoc, List.append_assoc,
        htaken.completed hopen]

/-- The account holds after a step if it held before. -/
theorem Accounted.step {feed : Feed σ} (h : feed.Accounted) (step : FeedStep σ) :
    (feed.step step).Accounted := by
  cases step with
  | event event now => exact h.event event now
  | write bytes =>
    refine ⟨?_, h.bounded, h.begun, h.completed⟩
    exact (List.append_assoc _ _ _).symm.trans (congrArg (· ++ _) h.bytes)
  | shut => exact ⟨h.bytes, h.bounded, h.begun, h.completed⟩
  | outbound pipe => exact ⟨h.bytes, h.bounded, h.begun, h.completed⟩
  | cancel => exact ⟨h.bytes, h.bounded, h.begun, h.completed⟩
  | surroundings hub => exact ⟨h.bytes, h.bounded, h.begun, h.completed⟩

/-- The account holds after any number of steps. -/
theorem Accounted.run {feed : Feed σ} (h : feed.Accounted) (steps : List (FeedStep σ)) :
    (feed.run steps).Accounted := by
  induction steps generalizing feed with
  | nil => exact h
  | cons step steps ih => exact ih (h.step step)

/-- However the bytes of a peer that writes envelopes are read, every chunk is dealt with on its
own; and as long as the connection is open, what was dispatched, what waits and what was not read
yet are the envelopes that were written, if and only if every cut falls between two of them. -/
theorem intake_run (peer : Endpoint) (capacity : Nat) (opened : Instant) (hub : Hub σ)
    (steps : List (FeedStep σ)) {envelopes : List Envelope}
    (hfits : ∀ envelope ∈ envelopes, envelope.payload.length ≤ 65535) :
    ∃ stream, Frame.encodeAll envelopes = .ok stream ∧
      ∀ unwritten,
        let feed := (start peer capacity opened hub).run steps
        feed.written ++ unwritten = stream →
          feed.Accounted ∧
            (feed.connection.hasEnded = false →
              ((∃ later,
                  Frame.encodeAll later = .ok (feed.connection.inbound.bytes ++ unwritten) ∧
                    feed.intake.dispatched ++ (feed.connection.pending ++ later) = envelopes) ↔
                CutsBetween envelopes feed.intake.chunks)) := by
  obtain ⟨stream, hstream⟩ := Frame.exists_encodeAll fun envelope hmem =>
    Nat.lt_succ_of_le (hfits envelope hmem)
  refine ⟨stream, hstream, ?_⟩
  rintro unwritten feed rfl
  have haccounted : feed.Accounted := (accounted_start peer capacity opened hub).run steps
  refine ⟨haccounted, fun hopen => ?_⟩
  rw [← haccounted.bytes, List.append_assoc] at hstream
  rw [← cutsBetween_iff hstream, ← haccounted.completed hopen]
  simp only [List.append_assoc]

/-- A peer writes two envelopes at once, of which the first is answered, and a third one later. -/
def twoReads : List (FeedStep Mailboxes) :=
  [.write [1, 1, 0, 9, 10, 0, 0], .event .read 0, .event .write 0, .write [10, 0, 0],
    .event .read 0]

/-- Both cuts fall between envelopes, and all three are dispatched. -/
theorem intake_run_twoReads :
    let envelopes : List Envelope :=
      [⟨.registeringRequest, [9]⟩, Envelope.heartbeat, Envelope.heartbeat]
    let feed := (start ⟨.v4 10 0 0 5, 41000, 0⟩ 65538 0 (Hub.start Mailboxes.empty)).run twoReads
    (∀ envelope ∈ envelopes, envelope.payload.length ≤ 65535) ∧
      Frame.encodeAll envelopes = .ok feed.written ∧ feed.connection.hasEnded = false ∧
      feed.intake.dispatched = envelopes ∧ feed.Accounted ∧
      CutsBetween envelopes feed.intake.chunks := by
  intro envelopes feed
  have hfits : ∀ envelope ∈ envelopes, envelope.payload.length ≤ 65535 := by decide
  have hencoded : Frame.encodeAll envelopes = .ok [1, 1, 0, 9, 10, 0, 0, 10, 0, 0] := rfl
  have hwritten : feed.written = [1, 1, 0, 9, 10, 0, 0, 10, 0, 0] := by decide +kernel
  have hopen : feed.connection.hasEnded = false := by decide +kernel
  have hdispatched : feed.intake.dispatched = envelopes := by decide +kernel
  have hquiet : feed.connection.inbound.bytes = [] ∧ feed.connection.pending = [] := by
    decide +kernel
  obtain ⟨stream, hstream, hrun⟩ := intake_run ⟨.v4 10 0 0 5, 41000, 0⟩ 65538 0
    (Hub.start Mailboxes.empty) twoReads hfits
  cases Except.ok.inj (hencoded.symm.trans hstream)
  obtain ⟨haccounted, hcuts⟩ := hrun [] ((List.append_nil _).trans hwritten)
  refine ⟨hfits, hwritten ▸ hencoded, hopen, hdispatched, haccounted,
    (hcuts hopen).mp ⟨[], ?_, ?_⟩⟩
  · show _ = Except.ok (feed.connection.inbound.bytes ++ [])
    rw [hquiet.1]
    rfl
  · show feed.intake.dispatched ++ (feed.connection.pending ++ []) = envelopes
    rw [hdispatched, hquiet.2]
    rfl

/-- One envelope in two chunks is not dispatched, although the connection stays open and has read
everything. -/
theorem not_dispatched_of_cut :
    let envelopes : List Envelope := [⟨.registeringRequest, [9]⟩]
    let feed := (start ⟨.v4 10 0 0 5, 41000, 0⟩ 65538 0 (Hub.start Mailboxes.empty)).run
      [.write [1, 1], .event .read 0, .write [0, 9], .event .read 0]
    (∀ envelope ∈ envelopes, envelope.payload.length ≤ 65535) ∧
      Frame.encodeAll envelopes = .ok feed.written ∧
      feed.intake.chunks = [[1, 1], [0, 9]] ∧
      feed.connection.hasEnded = false ∧ feed.connection.inbound.bytes = [] ∧
      feed.connection.pending = [] ∧ feed.intake.dispatched ≠ envelopes := by
  intro envelopes feed
  have hwritten : feed.written = [1, 1, 0, 9] := by decide +kernel
  refine ⟨by decide, ?_, ?_⟩
  · rw [hwritten]
    rfl
  · decide +kernel

end Feed

end RealmDirectory
